import Runbook.Proofs.Sharing

/-!
# What a scripted oracle answers

Every answer can be told from the calls before it: from the last script of the operation, and from
how often it was asked about since.

* `OracleCall`, `OracleCall.performAll`, `OracleCall.transcript` — the calls of a scripted oracle,
  the oracle after them, and what they were answered.
* `Oracle.get?_query` — a query takes a line from the script, but not the last one.
* `OracleCall.left_of_get?` — so this is left of a script after some calls.
* `OracleCall.Replays`, `oracle_replays` — what is answered after all calls.
-/

namespace Runbook

/-- A call of a scripted oracle. -/
inductive OracleCall where
  /-- give an operation these reports -/
  | script (id : String) (reports : List Report)
  /-- let queries about an operation fail -/
  | scriptUnavailable (id message : String)
  /-- ask about an operation -/
  | getStatus (id : String)
  deriving DecidableEq, Repr

namespace Oracle

variable {o : Oracle} {id : String} {lines : List Line}

/-- The answer that the front of a script gives. -/
def answerOf (id : String) : Option Line → Answer
  | some line => answerLine line
  | none => .error (.unknownOperation id)

theorem query_of_get? (known : o.scripts.get? id = some lines) :
    (o.query id).1 = answerOf id lines.head? := by
  rw [query, known]
  rcases lines with _ | ⟨line, _ | ⟨next, rest⟩⟩
  · rfl
  · rfl
  · rfl

theorem query_of_get?_eq_none (unknown : o.scripts.get? id = none) :
    o.query id = (.error (.unknownOperation id), o) := by
  rw [query, unknown]

/-- A query takes the first line, unless it is the last one. -/
theorem get?_query (known : o.scripts.get? id = some lines) :
    (o.query id).2.scripts.get? id = some (lines.drop (min 1 (lines.length - 1))) := by
  rw [query, known]
  rcases lines with _ | ⟨line, _ | ⟨next, rest⟩⟩
  · simpa using known
  · simpa using known
  · simp [script]

end Oracle

namespace OracleCall

variable {o : Oracle} {id : String} {lines : List Line} {c : OracleCall}
  {calls before since : List OracleCall}

/-- The operation that the call is about. -/
def operation : OracleCall → String
  | script id _ | scriptUnavailable id _ | getStatus id => id

/-- The lines that the call gives its operation, if it gives it any script. -/
def lines? : OracleCall → Option (List Line)
  | script _ reports => some (reports.map .ok)
  | scriptUnavailable _ message => some [.error message]
  | getStatus _ => none

/-- The oracle after the call. -/
def perform (o : Oracle) : OracleCall → Oracle
  | script id reports => o.script id (reports.map .ok)
  | scriptUnavailable id message => o.script id [.error message]
  | getStatus id => (o.query id).2

/-- The oracle after some calls. -/
def performAll (o : Oracle) (calls : List OracleCall) : Oracle := calls.foldl perform o

/-- What queries are answered, in order, and about which operation. -/
def transcript (o : Oracle) : List OracleCall → List (String × Answer)
  | [] => []
  | getStatus id :: calls =>
    (id, (o.query id).1) :: transcript ((getStatus id).perform o) calls
  | c :: calls => transcript (c.perform o) calls

/-- Whether the call gives this operation a script. -/
def scripts (id : String) (c : OracleCall) : Bool := c.operation == id && c.lines?.isSome

/-- How many of the calls ask about this operation. -/
def queries (id : String) (calls : List OracleCall) : Nat := calls.count (getStatus id)

/-- None of the calls gives this operation a script. -/
def Quiet (id : String) (calls : List OracleCall) : Prop := ∀ c ∈ calls, c.scripts id = false

/-! ## One call -/

theorem get?_perform_of_ne (o : Oracle) (other : c.operation ≠ id) :
    (c.perform o).scripts.get? id = o.scripts.get? id := by
  cases c with
  | script _ _ => exact Catalog.get?_insert_of_ne _ _ other.symm
  | scriptUnavailable _ _ => exact Catalog.get?_insert_of_ne _ _ other.symm
  | getStatus _ => exact o.scripts_query_of_ne other.symm

theorem get?_perform_of_lines? (o : Oracle) (given : c.lines? = some lines) :
    (c.perform o).scripts.get? c.operation = some lines := by
  cases c with
  | script _ _ =>
    cases given
    exact Catalog.get?_insert_self ..
  | scriptUnavailable _ _ =>
    cases given
    exact Catalog.get?_insert_self ..
  | getStatus _ => cases given

/-- A call that gives an operation no script asks about it, or is about another one. -/
theorem eq_getStatus_of_quiet (quiet : c.scripts id = false) :
    c = getStatus id ∨ c.operation ≠ id := by
  by_cases same : c.operation = id
  · left
    cases c with
    | getStatus other => exact congrArg getStatus same
    | _ => simp [scripts, same, lines?] at quiet
  · exact .inr same

/-! ## All calls -/

theorem performAll_append (o : Oracle) (calls more : List OracleCall) :
    performAll o (calls ++ more) = performAll (performAll o calls) more := by
  simp [performAll]

theorem transcript_append (o : Oracle) (calls more : List OracleCall) :
    transcript o (calls ++ more) =
      transcript o calls ++ transcript (performAll o calls) more := by
  induction calls generalizing o with
  | nil => rfl
  | cons c calls ih =>
    cases c with
    | getStatus id =>
      rw [List.cons_append, transcript, transcript, ih, List.cons_append]
      rfl
    | _ => exact ih _

/-- So many lines are gone after some queries. -/
theorem left_of_get? (known : o.scripts.get? id = some lines) (quiet : Quiet id since) :
    (performAll o since).scripts.get? id =
      some (lines.drop (min (queries id since) (lines.length - 1))) := by
  -- the latest call works on what the others have left, so it is taken off first
  induction since using List.reverseRecOn with
  | nil => simpa [performAll, queries] using known
  | append_singleton since c ih =>
    have left := ih fun c hc => quiet c (List.mem_append_left _ hc)
    have last := quiet c (List.mem_append_right _ (List.mem_singleton_self c))
    rw [performAll_append]
    change (c.perform (performAll o since)).scripts.get? id = _
    rcases eq_getStatus_of_quiet last with rfl | other
    · have asked := Oracle.get?_query left
      have count : queries id (since ++ [getStatus id]) = queries id since + 1 := by
        simp [queries]
      rw [perform, asked, List.drop_drop, List.length_drop, count]
      congr 2
      omega
    · have count : queries id (since ++ [c]) = queries id since := by
        have ne : c ≠ getStatus id := by
          rintro rfl
          exact other rfl
        simp [queries, ne]
      rw [get?_perform_of_ne _ other, left, count]

theorem get?_of_quiet (unknown : o.scripts.get? id = none) (quiet : Quiet id calls) :
    (performAll o calls).scripts.get? id = none := by
  induction calls generalizing o with
  | nil => exact unknown
  | cons c calls ih =>
    obtain ⟨here, later⟩ := List.forall_mem_cons.1 quiet
    refine ih ?_ later
    rcases eq_getStatus_of_quiet here with rfl | other
    · rw [perform, Oracle.query_of_get?_eq_none unknown]
      exact unknown
    · rw [get?_perform_of_ne o other, unknown]

/-- Before the next query, an operation was never given a script, or it was at some call and not
since. -/
theorem quiet_or_exists_last (id : String) (calls : List OracleCall) : Quiet id calls ∨
    ∃ before c since, calls = before ++ c :: since ∧ c.scripts id = true ∧ Quiet id since := by
  induction calls with
  | nil => exact .inl fun c hc => by cases hc
  | cons c calls ih =>
    rcases ih with quiet | ⟨before, last, since, rfl, given, quiet⟩
    · cases given : c.scripts id with
      | true => exact .inr ⟨[], c, calls, rfl, given, quiet⟩
      | false => exact .inl (List.forall_mem_cons.2 ⟨given, quiet⟩)
    · exact .inr ⟨c :: before, last, since, rfl, given, quiet⟩

/-- Two oracles that have the same left of a script answer the same about it. -/
theorem transcript_filter {o' : Oracle} (same : o.scripts.get? id = o'.scripts.get? id)
    (calls : List OracleCall) : (transcript o calls).filter (·.1 == id) =
      transcript o' (calls.filter (·.operation == id)) := by
  induction calls generalizing o o' with
  | nil => rfl
  | cons c calls ih =>
    -- calls about other operations neither answer for this one nor touch its script
    by_cases own : c.operation = id
    · subst own
      rw [List.filter_cons_of_pos (by simp)]
      cases c with
      | getStatus id =>
        obtain ⟨answer, left⟩ := Oracle.query_congr same
        rw [transcript, transcript, List.filter_cons_of_pos (by simp [operation])]
        exact congrArg₂ List.cons (congrArg (Prod.mk id) answer) (ih left)
      | script id reports =>
        refine ih ?_
        rw [perform, perform, Oracle.script, Oracle.script]
        simp [operation]
      | scriptUnavailable id message =>
        refine ih ?_
        rw [perform, perform, Oracle.script, Oracle.script]
        simp [operation]
    · have kept := (get?_perform_of_ne o own).trans same
      rw [List.filter_cons_of_neg (by simpa using own), ← ih kept]
      cases c with
      | getStatus other =>
        change ¬other = id at own
        rw [transcript, List.filter_cons_of_neg (by simpa using own)]
      | _ => rfl

/-! ## What is answered -/

/-- What a new oracle answers about an operation after some calls. -/
def statusAfter (calls : List OracleCall) (id : String) : Answer :=
  ((performAll .empty calls).query id).1

theorem statusAfter_of_lines? (before : List OracleCall) (given : c.lines? = some lines)
    (quiet : Quiet c.operation since) : statusAfter (before ++ c :: since) c.operation =
      Oracle.answerOf c.operation lines[min (queries c.operation since) (lines.length - 1)]? := by
  have left : (performAll .empty (before ++ c :: since)).scripts.get? c.operation =
      some (lines.drop (min (queries c.operation since) (lines.length - 1))) := by
    rw [performAll_append]
    exact left_of_get? (get?_perform_of_lines? _ given) quiet
  rw [statusAfter, Oracle.query_of_get? left, List.head?_drop]

/-- What is answered about an operation, told from the calls. -/
structure Replays (id : String) : Prop where
  /-- each query is answered as after the calls before it -/
  answered : ∀ before after, transcript .empty (before ++ getStatus id :: after) =
    transcript .empty before ++ (id, statusAfter before id) ::
      transcript (performAll .empty (before ++ [getStatus id])) after
  /-- the `k`-th query since a script of `n` reports, at least one, is answered with the report
  number `min k n` -/
  reports : ∀ before reports since k, reports ≠ [] → Quiet id since → k = queries id since + 1 →
    ∃ report, reports[min k reports.length - 1]? = some report ∧
      statusAfter (before ++ script id reports :: since) id = .ok report
  /-- all queries since a script that the oracle cannot be reached are answered with its message -/
  unavailable : ∀ before message since, Quiet id since →
    statusAfter (before ++ scriptUnavailable id message :: since) id =
      .error (.unavailable message)
  /-- without a script, the operation is not known -/
  unscripted : ∀ calls, Quiet id calls → statusAfter calls id = .error (.unknownOperation id)
  /-- nor is it since a script without reports -/
  emptied : ∀ before since, Quiet id since →
    statusAfter (before ++ script id [] :: since) id = .error (.unknownOperation id)
  /-- one of these is the case -/
  exhaustive : ∀ calls, Quiet id calls ∨ ∃ before c since, calls = before ++ c :: since ∧
    Quiet id since ∧ ((∃ reports, c = script id reports) ∨
      ∃ message, c = scriptUnavailable id message)
  /-- without the calls about other operations, all queries are answered the same -/
  alone : ∀ calls, (transcript .empty calls).filter (·.1 == id) =
    transcript .empty (calls.filter (·.operation == id))

end OracleCall

section

open OracleCall

/-- Whatever was called before, an answer depends only on the last script of its operation and the
number of queries about it since. -/
theorem oracle_replays (id : String) : Replays id where
  answered before after := by
    rw [transcript_append, transcript, performAll_append]
    rfl
  reports before reports since k some quiet count := by
    have status := statusAfter_of_lines? (c := script id reports) before rfl quiet
    -- queries are counted from one, and lines from zero
    have positive := List.length_pos_iff.2 some
    have inside : min k reports.length - 1 < reports.length := by omega
    have number : min (queries id since) (reports.length - 1) = min k reports.length - 1 := by
      omega
    refine ⟨_, List.getElem?_eq_getElem inside, ?_⟩
    change statusAfter _ id = Oracle.answerOf id _ at status
    rw [status, operation, List.length_map, number, List.getElem?_map,
      List.getElem?_eq_getElem inside]
    rfl
  unavailable before message since quiet := by
    have status := statusAfter_of_lines? (c := scriptUnavailable id message) before rfl quiet
    rw [List.length_singleton, Nat.sub_self, Nat.min_zero] at status
    exact status
  unscripted calls quiet := by
    rw [statusAfter, Oracle.query_of_get?_eq_none (get?_of_quiet rfl quiet)]
  emptied before since quiet := statusAfter_of_lines? (c := script id []) before rfl quiet
  exhaustive calls := by
    rcases quiet_or_exists_last id calls with quiet | ⟨before, c, since, split, given, quiet⟩
    · exact .inl quiet
    · refine .inr ⟨before, c, since, split, quiet, ?_⟩
      cases c with
      | script other reports =>
        have same : other = id := by simpa [scripts, operation, lines?] using given
        exact .inl ⟨reports, same ▸ rfl⟩
      | scriptUnavailable other message =>
        have same : other = id := by simpa [scripts, operation, lines?] using given
        exact .inr ⟨message, same ▸ rfl⟩
      | getStatus other => simp [scripts, lines?] at given
  alone calls := transcript_filter rfl calls

/-- Two queries take two reports, and the third one gets the second report again. -/
example : transcript .empty [script "op-1" [.running, .finished "done"], getStatus "op-1",
    scriptUnavailable "op-2" "refused", getStatus "op-1", getStatus "op-2", getStatus "op-1"] =
      [("op-1", .ok .running), ("op-1", .ok (.finished "done")),
        ("op-2", .error (.unavailable "refused")), ("op-1", .ok (.finished "done"))] := by decide

end

end Runbook
