import KvFlowSim.Foundations.UInt
import KvFlowSim.Foundations.SortByKey
import Mathlib.Data.Prod.Lex

/-!
# Requests

`trace/request.rs`: a serving request, and the order by arrival time and id in which both runners
take a trace and return their results.
-/

namespace KvFlowSim

/-- The sort key `(arrival_ns, request_id)`, in the lexicographic order of Rust's tuples. -/
abbrev ArrivalKey := UInt64 ×ₗ UInt64

/-- A serving request. -/
structure LlmRequest where
  requestId : UInt64
  sessionId : UInt64
  turnId : UInt32
  arrivalNs : UInt64
  promptTokens : UInt32
  newPromptTokens : UInt32
  outputTokens : UInt32
  modelId : String
  sloTtftNs : Option UInt64
  sloTbtNs : Option UInt64
  deriving DecidableEq

namespace LlmRequest

def reusedPrefixTokens (req : LlmRequest) : UInt32 := req.promptTokens.satSub req.newPromptTokens

/-- A request of a session of its own, with nothing to reuse. -/
def cold (requestId arrivalNs : UInt64) (promptTokens outputTokens : UInt32) : LlmRequest where
  requestId := requestId
  sessionId := requestId
  turnId := 0
  arrivalNs := arrivalNs
  promptTokens := promptTokens
  newPromptTokens := promptTokens
  outputTokens := outputTokens
  modelId := ""
  sloTtftNs := none
  sloTbtNs := none

def arrivalKey (req : LlmRequest) : ArrivalKey := toLex (req.arrivalNs, req.requestId)

end LlmRequest

/-- The requests of a trace have pairwise distinct ids. -/
def DistinctIds (requests : List LlmRequest) : Prop := (requests.map (·.requestId)).Nodup

instance (requests : List LlmRequest) : Decidable (DistinctIds requests) :=
  inferInstanceAs (Decidable (List.Nodup _))

/-- The trace in the order in which it is played, `sort_by_key(|r|
(r.arrival_ns, r.request_id))`. -/
def sortRequests (requests : List LlmRequest) : List LlmRequest :=
  requests.sortByKey LlmRequest.arrivalKey

theorem sortRequests_perm (requests : List LlmRequest) : (sortRequests requests).Perm requests :=
  List.sortByKey_perm _ _

end KvFlowSim
