import KvFlowSim.Foundations.UInt
import KvFlowSim.Error

/-!
# Compute models and model profiles

`model/compute.rs` and `model/profile.rs`: the latency of prefill and decode, and the size of the
KV tensors of a prefix. `ComputeModel` is the trait; a model answers from its own parameters only.
-/

namespace KvFlowSim

/-- The trait `ComputeModel`. -/
class ComputeModel (C : Type) where
  prefillTimeNs : C → UInt32 → UInt64
  decodeStepTimeNs : C → UInt32 → UInt32 → UInt64

/-- `LinearComputeModel`. -/
structure LinearComputeModel where
  prefillBaseNs : UInt64
  prefillPerTokenNs : UInt64
  decodeBaseNs : UInt64
  decodePerSequenceNs : UInt64
  decodePer1kContextNs : UInt64

def LinearComputeModel.conservative8b : LinearComputeModel where
  prefillBaseNs := 100000
  prefillPerTokenNs := 3500
  decodeBaseNs := 600000
  decodePerSequenceNs := 35000
  decodePer1kContextNs := 12000

instance : ComputeModel LinearComputeModel where
  prefillTimeNs m promptTokens :=
    m.prefillBaseNs.satAdd (m.prefillPerTokenNs.satMul promptTokens.toUInt64)
  decodeStepTimeNs m activeSequences contextTokens :=
    let contextK := contextTokens / 1024 + if contextTokens % 1024 = 0 then 0 else 1
    (m.decodeBaseNs.satAdd (m.decodePerSequenceNs.satMul activeSequences.toUInt64)).satAdd
      (m.decodePer1kContextNs.satMul contextK.toUInt64)

/-- `ModelProfile`. -/
structure ModelProfile where
  modelId : String
  numLayers : UInt32
  numKvHeads : UInt32
  headDim : UInt32
  bytesPerElem : UInt32
  maxContextTokens : UInt32

namespace ModelProfile

def validate (p : ModelProfile) : Except KvFlowError Unit :=
  if p.modelId.isEmpty then .error (.invalidModelProfile "model_id is empty")
  else if p.numLayers = 0 ∨ p.numKvHeads = 0 ∨ p.headDim = 0 ∨ p.bytesPerElem = 0 then
    .error (.invalidModelProfile "KV shape fields must be positive")
  else .ok ()

def new (modelId : String) (numLayers numKvHeads headDim bytesPerElem maxContextTokens : UInt32) :
    Except KvFlowError ModelProfile := do
  let profile : ModelProfile :=
    { modelId, numLayers, numKvHeads, headDim, bytesPerElem, maxContextTokens }
  profile.validate
  .ok profile

def kvBytesPerToken (p : ModelProfile) : UInt64 :=
  2 * p.numLayers.toUInt64 * p.numKvHeads.toUInt64 * p.headDim.toUInt64 * p.bytesPerElem.toUInt64

def kvBytes (p : ModelProfile) (tokens : UInt32) : UInt64 :=
  p.kvBytesPerToken.satMul tokens.toUInt64

/-- `profiles::llama_8b_bf16_gqa`. -/
def llama8bBf16Gqa : ModelProfile where
  modelId := "llama-8b-bf16-gqa"
  numLayers := 32
  numKvHeads := 8
  headDim := 128
  bytesPerElem := 2
  maxContextTokens := 131072

example : new "llama-8b-bf16-gqa" 32 8 128 2 131072 = .ok llama8bBf16Gqa := rfl

example : llama8bBf16Gqa.kvBytesPerToken = 128 * 1024 := rfl

end ModelProfile

end KvFlowSim
