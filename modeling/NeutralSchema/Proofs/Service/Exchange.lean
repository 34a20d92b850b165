import NeutralSchema.Proofs.Service.Message
import NeutralSchema.Service.Exchange

/-!
# Sorting replies

Every status with every body is exactly one of four cases, and a body that denotes a response is
never mistaken for the rejection of a host. Main statements: `interpret_eq_iff`,
`not_rejects_of_read`.
-/
namespace NeutralSchema.Service

/-- Whether a body starts as one does that rejects the host. -/
def Rejects (body : String) : Prop := "Host not allowed".toList <+: body.toList

section

variable {status : Nat} {body : String}

theorem isSuccess_iff : isSuccess status ↔ 200 ≤ status ∧ status ≤ 299 := by
  simp [isSuccess, Nat.lt_succ_iff]

theorem isPrefixOf_rejection : rejection.toList.isPrefixOf body.toList ↔ Rejects body :=
  List.isPrefixOf_iff_prefix

/-- No document starts as a body does that rejects the host. -/
theorem not_rejects_of_read {r : Response} (decoded : Response.read body = .ok r) :
    ¬Rejects body := by
  rintro ⟨rest, starts⟩
  have malformed : Json.read body = .error .expectedValue := by
    have letters : "Host not allowed".toList = 'H' :: "ost not allowed".toList := rfl
    rw [Json.read, ← starts, letters, List.cons_append, Json.State.read]
    rfl
  rw [Response.read, Json.decodeText, malformed] at decoded
  cases decoded

end

/-- Statuses and bodies are received as they are sent, but for a byte order mark and the bodies of
replies that have none. -/
theorem received_eq_self {sent : Reply} (carries : sent.status ≠ 204 ∧ sent.status ≠ 304)
    (unmarked : sent.body.toList.head? ≠ some '\uFEFF') : sent.received = sent := by
  have unchanged : Text.withoutMark sent.body.toList = sent.body.toList := by
    unfold Text.withoutMark
    split
    next marked => simp [marked] at unmarked
    next => rfl
  simp [Reply.received, isBodiless, carries, unchanged]

section

variable [Json.Locating]

/-- What a status and a body are sorted as: the first of four cases whose condition holds. -/
inductive Sorted (status : Nat) (body : String) : Except ServiceError Response → Prop where
  | unsuccessful (outside : ¬(200 ≤ status ∧ status ≤ 299)) :
    Sorted status body (.error (.unsuccessful status body))
  | hostRejected (success : 200 ≤ status ∧ status ≤ 299) (rejects : Rejects body) :
    Sorted status body (.error (.hostRejected body))
  | undecodable {e : Json.DecodeError} (success : 200 ≤ status ∧ status ≤ 299)
    (allowed : ¬Rejects body) (refused : Response.read body = .error e) :
    Sorted status body (.error (.undecodable body (Json.locate body e)))
  | response {r : Response} (success : 200 ≤ status ∧ status ≤ 299) (allowed : ¬Rejects body)
    (decoded : Response.read body = .ok r) : Sorted status body (.ok r)

variable {status : Nat} {body : String}

theorem Sorted.read_eq_ok {r : Response} (sorted : Sorted status body (.ok r)) :
    Response.read body = .ok r := by
  cases sorted with
  | response success allowed decoded => exact decoded

theorem sorted_interpret (status : Nat) (body : String) :
    Sorted status body (interpret status body) := by
  rw [interpret]
  split
  case isTrue fails =>
    rw [Bool.not_eq_true', ← Bool.not_eq_true, isSuccess_iff] at fails
    exact .unsuccessful fails
  case isFalse succeeds =>
    rw [Bool.not_eq_true', Bool.not_eq_false, isSuccess_iff] at succeeds
    split
    case isTrue rejects => exact .hostRejected succeeds (isPrefixOf_rejection.mp rejects)
    case isFalse allowed =>
      rw [isPrefixOf_rejection] at allowed
      split
      case h_1 decoded => exact .response succeeds allowed decoded
      case h_2 refused => exact .undecodable succeeds allowed refused

theorem interpret_of_sorted {answer : Except ServiceError Response}
    (sorted : Sorted status body answer) : interpret status body = answer := by
  cases sorted with
  | unsuccessful outside => simp [interpret, mt isSuccess_iff.mp outside]
  | hostRejected success rejects =>
    simp [interpret, isSuccess_iff.mpr success, isPrefixOf_rejection.mpr rejects]
  | undecodable success allowed refused =>
    simp [interpret, isSuccess_iff.mpr success, mt isPrefixOf_rejection.mp allowed, refused]
  | response success allowed decoded =>
    simp [interpret, isSuccess_iff.mpr success, mt isPrefixOf_rejection.mp allowed, decoded]

theorem interpret_eq_iff {answer : Except ServiceError Response} :
    interpret status body = answer ↔ Sorted status body answer := by
  refine ⟨?_, interpret_of_sorted⟩
  rintro rfl
  exact sorted_interpret status body

theorem conclude_some (endpoint : Url) (sent : Reply) :
    conclude endpoint (some sent) = interpret sent.status sent.received.body := by
  rw [conclude, Reply.received]
  split <;> rfl

end

end NeutralSchema.Service
