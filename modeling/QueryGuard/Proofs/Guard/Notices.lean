import Mathlib.Data.List.Basic
import QueryGuard.Guard

/-!
A guard at work, over a whole sequence of queries. Its reports are those of the validations,
whatever becomes of the calls of its notifier. Main statement: the notifier is called once for each
report that is an error, in the order of the reports, with the number of errors and the summary of
that report; and but for its calls a guard with a notifier is one without.
-/

namespace QueryGuard

namespace Report

/-- What a notifier is told of the report. -/
def notice (r : Report) : Notification := ⟨r.errorCount, r.status, r.summary⟩

lemma notification?_of_error {r : Report} (h : r.status = .error) :
    r.notification? = some r.notice := by
  simp only [notification?, isError, h, beq_self_eq_true, if_true, notice]

lemma notification?_of_ne {r : Report} (h : r.status ≠ .error) : r.notification? = none := by
  simp [notification?, isError, h]

/-- The notifications of reports are those of the errors among them. -/
lemma filterMap_notification? (rs : List Report) :
    rs.filterMap notification? = (rs.filter (·.status = .error)).map notice := by
  induction rs with
  | nil => rfl
  | cons r rs ih =>
    by_cases h : r.status = .error
    · rw [List.filterMap_cons_some (notification?_of_error h), List.filter_cons_of_pos (by simpa),
        List.map_cons, ih]
    · rw [List.filterMap_cons_none (notification?_of_ne h), List.filter_cons_of_neg (by simpa), ih]

end Report

namespace Session

/-- The calls that notifications lead to, behind `n` earlier ones. -/
def answered (succeeds : Nat → Bool) (n : Nat) (ns : List Notification) :
    List (Notification × Bool) :=
  ns.mapIdx fun i m => (m, succeeds (n + i + 1))

lemma answered_append (succeeds : Nat → Bool) (n : Nat) (ms ns : List Notification) :
    answered succeeds n (ms ++ ns) =
      answered succeeds n ms ++ answered succeeds (n + ms.length) ns := by
  simp [answered, List.mapIdx_append, Nat.add_assoc, Nat.add_left_comm]

lemma length_answered (succeeds : Nat → Bool) (n : Nat) (ns : List Notification) :
    (answered succeeds n ns).length = ns.length := List.length_mapIdx

variable (s : Session) (q : Query) (context : Option Json) (qs : List (Query × Option Json))

/-! ### One query -/

lemma config_step : (s.step q context).config = s.config := rfl

lemma reports_step : (s.step q context).reports = s.reports ++ [s.config.validate q context] := rfl

lemma calls_step_silent (h : s.notifier = none) : (s.step q context).calls = s.calls := by
  simp only [step, h]

lemma calls_step {succeeds : Nat → Bool} (h : s.notifier = some succeeds) :
    (s.step q context).calls = s.calls ++ answered succeeds s.calls.length
      (s.config.validate q context).notification?.toList := by
  cases hn : (s.config.validate q context).notification? with
  | none => simp [step, h, hn, answered]
  | some n => simp [step, h, hn, answered]

/-! ### A sequence of queries -/

lemma run_cons : s.run ((q, context) :: qs) = (s.step q context).run qs := rfl

/-- The reports of a run are those of the validations, with or without a notifier. -/
theorem reports_run : (s.run qs).reports =
    s.reports ++ qs.map fun q => s.config.validate q.1 q.2 := by
  induction qs generalizing s with
  | nil => exact (List.append_nil _).symm
  | cons q qs ih =>
    rw [run_cons, ih, reports_step, config_step, List.map_cons, List.append_assoc,
      List.singleton_append]

/-- Without a notifier nothing is called. -/
theorem calls_run_silent (h : s.notifier = none) : (s.run qs).calls = s.calls := by
  induction qs generalizing s with
  | nil => rfl
  | cons q qs ih => rw [run_cons, ih (s.step q.1 q.2) h, calls_step_silent _ _ _ h]

/-- A run calls the notifier for every error among its reports, one after the other. -/
theorem calls_run {succeeds : Nat → Bool} (h : s.notifier = some succeeds) :
    (s.run qs).calls = s.calls ++ answered succeeds s.calls.length
      ((qs.map fun q => s.config.validate q.1 q.2).filterMap Report.notification?) := by
  induction qs generalizing s with
  | nil => exact (List.append_nil _).symm
  | cons q qs ih =>
    have hlen : (s.step q.1 q.2).calls.length =
        s.calls.length + (s.config.validate q.1 q.2).notification?.toList.length := by
      rw [calls_step _ _ _ h, List.length_append, length_answered]
    rw [run_cons, ih (s.step q.1 q.2) h, hlen, calls_step _ _ _ h, config_step, List.append_assoc,
      ← answered_append, List.map_cons]
    congr 2
    cases hn : (s.config.validate q.1 q.2).notification? <;> simp [hn]

/-- **The notifier is called once for each report that is an error**, with its number of errors and
its summary, and changes nothing: the reports are those of the guard without one, which are those
of the validations. -/
theorem run_start (c : Config) (succeeds : Nat → Bool) (qs : List (Query × Option Json)) :
    let silent := (start c none).run qs
    let s := (start c (some succeeds)).run qs
    silent.reports = (qs.map fun q => c.validate q.1 q.2) ∧ silent.calls = [] ∧
      s.reports = silent.reports ∧
      s.calls = (s.reports.filter (·.status = .error)).mapIdx
        fun i r => (⟨r.errorCount, r.status, r.summary⟩, succeeds (i + 1)) := by
  have hsilent := (start c none).reports_run qs
  have hreports := (start c (some succeeds)).reports_run qs
  have hcalls := (start c (some succeeds)).calls_run qs rfl
  refine ⟨hsilent, (start c none).calls_run_silent qs rfl, hreports.trans hsilent.symm, ?_⟩
  rw [Report.filterMap_notification?] at hcalls
  rw [hreports, hcalls]
  simp [start, answered, Report.notice, List.mapIdx_eq_zipIdx_map, List.zipIdx_map]

end Session

end QueryGuard
