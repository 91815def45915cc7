import WorkspaceCycles.Issue

namespace WorkspaceCycles

structure Report where
  issues : List Issue
deriving DecidableEq, Repr

namespace Report

def passed (r : Report) : Bool :=
  r.issues.isEmpty

def total (r : Report) : Nat :=
  r.issues.length

def count (r : Report) (s : Severity) : Nat :=
  r.issues.countP (·.severity == s)

theorem total_eq_sum_count (r : Report) :
    r.total = r.count .critical + r.count .high + r.count .medium + r.count .low := by
  obtain ⟨issues⟩ := r
  simp only [total, count]
  induction issues with
  | nil => rfl
  | cons i is ih =>
    simp only [List.countP_cons, List.length_cons, ih]
    cases i.severity <;> simp <;> omega

def toJson (r : Report) : Json :=
  .object
    [("success", .bool r.passed),
      ("issues", .list (r.issues.map Issue.toJson)),
      ("stats", .object
        (("total", .int r.total) ::
          [Severity.critical, .high, .medium, .low].map fun s => (s.text, .int (r.count s))))]

end Report

end WorkspaceCycles
