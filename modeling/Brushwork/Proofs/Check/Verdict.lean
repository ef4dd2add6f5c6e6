import Brushwork.Check.Analysis
import Brushwork.Proofs.Grammar.Clean

/-!
What the check says about a program.

The check goes through the statements with a table of types. It is brought into a form in which every
statement has complaints of its own:

* `verdict`: the complaints about one action, under the types and labels that are known there.
* `statement_eq` and `foldl_statement`: checking statements adds their verdicts, one after the other.
* `program_of_wellFormed`: for a well-formed program nothing but these verdicts is left.
* `verdict_structural`: what a sound action may still be blamed for are types.
* `complaints_of_verdict`, `verdict_goTo` and `isForm_of_verdict`: what an action without complaints
  is like.
-/

namespace Brushwork.Check

/-! ### Complaints about expressions -/

variable {types : Table Ty} {labels : List String}

/-- The complaint is about how a program is put together, not about types. -/
def Complaint.isStructural : Complaint → Bool
  | spawnNotFirst | duplicateLabel _ | undefinedLabel _ | unknownFunction _
  | directionOutOfRange _ _ | unhandledStatement _ | unhandledExpression _ => true
  | _ => false

lemma mem_argumentComplaints {c : Complaint} {es : List Expr} :
    c ∈ argumentComplaints types es ↔
      ∃ e ∈ es, e.textLiteral? = none ∧ c ∈ (typing types e).complaints := by
  induction es with
  | nil => simp [argumentComplaints]
  | cons e es ih =>
      rw [argumentComplaints, List.mem_append, ih]
      cases h : e.textLiteral? <;> simp [h]

/-- In a call without complaints an argument has none either, unless it is a text. -/
lemma complaints_of_argument {m : Mark} {name : String} {args : List Expr} {a : Expr}
    (h : (typing types (.call m name args)).complaints = []) (ha : a ∈ args)
    (htext : a.textLiteral? = none) : (typing types a).complaints = [] := by
  rw [typing] at h
  have hargs : argumentComplaints types args = [] := (List.append_eq_nil_iff.1 h).2
  refine List.eq_nil_iff_forall_not_mem.2 fun c hc => ?_
  have hmem : c ∈ argumentComplaints types args := mem_argumentComplaints.2 ⟨a, ha, htext, hc⟩
  simp [hargs] at hmem

lemma mem_binaryTyping {c : Complaint} {symbol : String} {left right : Expr} {l r : Typing}
    (h : c ∈ (binaryTyping symbol left right l r).complaints) :
    c ∈ l.complaints ∨ c ∈ r.complaints ∨ c = .typeMismatch symbol := by
  rw [binaryTyping] at h
  split at h
  · rcases List.mem_append.1 h with h | h
    · exact .inl h
    · exact .inr (.inl h)
  · simpa [or_assoc] using h

/-- Two operands without complaint: the operator exists and takes them. -/
lemma binaryTyping_eq_nil {symbol : String} {left right : Expr} {l r : Typing}
    (h : (binaryTyping symbol left right l r).complaints = []) :
    ∃ op, Op.ofSymbol? symbol = some op ∧
      resultType? op left right l.ty r.ty = some (binaryTyping symbol left right l r).ty ∧
      l.complaints = [] ∧ r.complaints = [] := by
  rw [binaryTyping] at h ⊢
  split at h
  · next ty hty =>
    obtain ⟨op, hop, hres⟩ := Option.bind_eq_some_iff.1 hty
    obtain ⟨hl, hr⟩ := List.append_eq_nil_iff.1 h
    exact ⟨op, hop, hres, hl, hr⟩
  · simp at h

/-- An expression whose calls fit and that holds no foreign node is blamed for types only. -/
lemma typing_structural {e : Expr} (he : e.Sound) {c : Complaint}
    (hc : c ∈ (typing types e).complaints) : c.isStructural = false := by
  induction e using Expr.ind with
  | lit m v =>
      cases v with
      | int n => simp [typing] at hc
      | bool b => simp [typing] at hc
      | text s =>
          obtain rfl : c = .textAsValue s := by simpa [typing] using hc
          rfl
  | var m name =>
      rw [typing] at hc
      split at hc
      · simp at hc
      · obtain rfl : c = .undefinedVariable name := by simpa using hc
        rfl
  | group m e ih =>
      rw [typing] at hc
      exact ih ⟨(Expr.all_group.1 he.1).2, (Expr.all_group.1 he.2).2⟩ hc
  | binary m l symbol r ihl ihr =>
      rw [typing] at hc
      obtain ⟨-, hl₁, hr₁⟩ := Expr.all_binary.1 he.1
      obtain ⟨-, hl₂, hr₂⟩ := Expr.all_binary.1 he.2
      rcases mem_binaryTyping hc with h | h | rfl
      · exact ihl ⟨hl₁, hl₂⟩ h
      · exact ihr ⟨hr₁, hr₂⟩ h
      · rfl
  | call m name args ih =>
      obtain ⟨⟨b, hb, -⟩, hargs₁⟩ := Expr.all_call.1 he.1
      obtain ⟨-, hargs₂⟩ := Expr.all_call.1 he.2
      simp only [typing, hb, Option.isSome_some, if_true, List.nil_append] at hc
      obtain ⟨a, ha, -, hca⟩ := mem_argumentComplaints.1 hc
      exact ih a ha ⟨hargs₁ a ha, hargs₂ a ha⟩ hca
  | foreign m form => exact absurd he.2.self id

/-! ### Complaints about statements -/

/-- The complaints about an expression that has to be of a type. -/
def need (types : Table Ty) (e : Expr) (ty : Ty) (otherwise : Complaint) : List Complaint :=
  (typing types e).complaints ++ if (typing types e).ty = ty then [] else [otherwise]

/-- The complaints about a direction. -/
def heading (types : Table Ty) (command : Command) (axis : Axis) (e : Expr) : List Complaint :=
  (typing types e).complaints ++
    if (typing types e).ty = .integer then
      match e.intLiteral? with
      | some n => if -1 ≤ n ∧ n ≤ 1 then [] else [.directionOutOfRange command axis]
      | none => []
    else [.argumentNotInteger command axis.argument]

/-- The complaints about both directions of a drawing command. -/
def headings (types : Table Ty) (command : Command) (dx dy : Expr) : List Complaint :=
  heading types command .x dx ++ heading types command .y dy

/-- The complaints about a further argument of a drawing command. -/
def amount (types : Table Ty) (command : Command) (argument : String) (e : Expr) : List Complaint :=
  need types e .integer (.argumentNotInteger command argument)

/-- The complaints about an action, where variables have the given types and the labels are known. -/
def verdict (types : Table Ty) (labels : List String) : Action → List Complaint
  | .spawn x y =>
    need types x .integer (.spawnNotInteger .x) ++ need types y .integer (.spawnNotInteger .y)
  | .size e => need types e .integer .sizeNotInteger
  | .drawLine dx dy distance =>
    headings types .drawLine dx dy ++ amount types .drawLine "distance" distance
  | .drawCircle dx dy radius =>
    headings types .drawCircle dx dy ++ amount types .drawCircle "radius" radius
  | .drawRectangle dx dy distance width height =>
    headings types .drawRectangle dx dy ++ amount types .drawRectangle "distance" distance ++
      amount types .drawRectangle "width" width ++ amount types .drawRectangle "height" height
  | .assign _ e => (typing types e).complaints
  | .goTo label condition =>
    (if label ∈ labels then [] else [.undefinedLabel label]) ++
      need types condition .boolean .conditionNotBoolean
  | .color _ | .fill | .label _ => []
  | .foreign form => [.unhandledStatement form]

/-- The types behind an action: an assignment gives its variable a type. -/
def retype (types : Table Ty) : Action → Table Ty
  | .assign name e => types.put name (typing types e).ty
  | _ => types

/-- The types behind a row of statements. -/
def typesAfter (types : Table Ty) (ss : List Stmt) : Table Ty :=
  ss.foldl (fun types s => retype types s.action) types

/-- The complaints about a row of statements. -/
def verdicts (labels : List String) : Table Ty → List Stmt → List Complaint
  | _, [] => []
  | types, s :: ss => verdict types labels s.action ++ verdicts labels (retype types s.action) ss

lemma verdicts_append (ss ss' : List Stmt) :
    verdicts labels types (ss ++ ss') =
      verdicts labels types ss ++ verdicts labels (typesAfter types ss) ss' := by
  induction ss generalizing types with
  | nil => rfl
  | cons s ss ih => simp [verdicts, typesAfter, ih]

lemma mem_verdicts {c : Complaint} {ss : List Stmt} (hc : c ∈ verdicts labels types ss) :
    ∃ pre s post, ss = pre ++ s :: post ∧ c ∈ verdict (typesAfter types pre) labels s.action := by
  induction ss generalizing types with
  | nil => simp [verdicts] at hc
  | cons s ss ih =>
      rcases List.mem_append.1 hc with h | h
      · exact ⟨[], s, ss, rfl, h⟩
      · obtain ⟨pre, s', post, rfl, h'⟩ := ih h
        exact ⟨s :: pre, s', post, rfl, h'⟩

/-- In a row without complaints no statement has any, under the types behind those before it. -/
lemma verdict_of_split {pre post : List Stmt} {s : Stmt}
    (h : verdicts labels types (pre ++ s :: post) = []) :
    verdict (typesAfter types pre) labels s.action = [] := by
  rw [verdicts_append, verdicts, List.append_eq_nil_iff, List.append_eq_nil_iff] at h
  exact h.2.1

namespace Analysis

lemma require_eq (a : Analysis) (e : Expr) (ty : Ty) (otherwise : Complaint) :
    a.require e ty otherwise = a.report (need a.types e ty otherwise) := rfl

lemma direction_eq (a : Analysis) (command : Command) (axis : Axis) (e : Expr) :
    a.direction command axis e = a.report (heading a.types command axis e) := rfl

lemma integer_eq (a : Analysis) (command : Command) (argument : String) (e : Expr) :
    a.integer command argument e = a.report (amount a.types command argument e) := rfl

/-- **Checking a statement** adds the verdict on it and takes up its type. -/
theorem statement_eq (a : Analysis) (s : Stmt) :
    a.statement s =
      ⟨a.complaints ++ verdict a.types a.labels s.action, retype a.types s.action, a.labels⟩ := by
  obtain ⟨m, action⟩ := s
  cases action with
  | goTo label condition =>
      simp only [statement, require_eq, verdict, retype]
      split <;> simp [report]
  | assign name e => simp [statement, report, typing, verdict, retype]
  | _ =>
      simp [statement, require_eq, direction_eq, integer_eq, report, verdict, headings, retype]

lemma foldl_statement (a : Analysis) (ss : List Stmt) :
    ss.foldl statement a =
      ⟨a.complaints ++ verdicts a.labels a.types ss, typesAfter a.types ss, a.labels⟩ := by
  induction ss generalizing a with
  | nil => simp [verdicts, typesAfter]
  | cons s ss ih => simp [ih, statement_eq, verdicts, typesAfter]

/-- Different names are declared without complaints. -/
lemma foldl_declare (a : Analysis) {names : List String} (h : (a.labels ++ names).Nodup) :
    names.foldl declare a = { a with labels := a.labels ++ names } := by
  induction names generalizing a with
  | nil => simp
  | cons name names ih =>
      have hnew : name ∉ a.labels := fun hmem =>
        (List.nodup_append.1 h).2.2 name hmem name (by simp) rfl
      rw [List.foldl_cons, declare, if_neg hnew, ih]
      · simp
      · simpa using h

/-- **A well-formed program is judged statement by statement.** -/
theorem program_of_wellFormed {ss : Array Stmt} (h : Program.WellFormed ss.toList) :
    empty.program ss =
      ⟨verdicts (Program.labelNames ss.toList) .empty ss.toList, typesAfter .empty ss.toList,
        Program.labelNames ss.toList⟩ := by
  have hnodup : (empty.labels ++ Program.labelNames ss.toList).Nodup := h.labels_distinct
  have hdeclare := foldl_declare empty hnodup
  rw [Program.labelNames] at hdeclare
  simp only [program, h.startsWithSpawn, if_true, hdeclare, foldl_statement]
  rfl

end Analysis

/-! ### What verdicts say -/

section Structural

variable {c : Complaint} {e : Expr}

lemma need_structural (he : e.Sound) {ty : Ty} {otherwise : Complaint}
    (ho : otherwise.isStructural = false) (hc : c ∈ need types e ty otherwise) :
    c.isStructural = false := by
  rcases List.mem_append.1 hc with h | h
  · exact typing_structural he h
  · split at h
    · simp at h
    · rwa [List.mem_singleton.1 h]

lemma amount_structural (he : e.Sound) {command : Command} {argument : String}
    (hc : c ∈ amount types command argument e) : c.isStructural = false :=
  need_structural he rfl hc

/-- A direction that keeps to one step where it is a literal is not found out of range. -/
lemma heading_structural (he : e.Sound) (hnear : e.Near) {command : Command} {axis : Axis}
    (hc : c ∈ heading types command axis e) : c.isStructural = false := by
  rcases List.mem_append.1 hc with h | h
  · exact typing_structural he h
  · split at h
    · split at h
      · next n hn =>
        have hrange := hnear n hn
        rw [if_pos (by omega)] at h
        simp at h
      · simp at h
    · rw [List.mem_singleton.1 h]
      rfl

lemma headings_structural {dx dy : Expr} (hx : dx.Sound) (hy : dy.Sound) (hnx : dx.Near)
    (hny : dy.Near) {command : Command} (hc : c ∈ headings types command dx dy) :
    c.isStructural = false := by
  rcases List.mem_append.1 hc with h | h
  · exact heading_structural hx hnx h
  · exact heading_structural hy hny h

/-- **A sound action** whose target is known is blamed for types only. -/
theorem verdict_structural {a : Action} (ha : a.Sound)
    (ht : ∀ name, a.target? = some name → name ∈ labels) (hc : c ∈ verdict types labels a) :
    c.isStructural = false := by
  obtain ⟨hform, hsound, hnear⟩ := ha
  cases a with
  | spawn x y =>
      simp only [Action.exprs, List.forall_mem_cons] at hsound
      obtain ⟨hx, hy, -⟩ := hsound
      rcases List.mem_append.1 hc with h | h
      · exact need_structural hx rfl h
      · exact need_structural hy rfl h
  | size e => exact need_structural (hsound e (by simp [Action.exprs])) rfl hc
  | drawLine dx dy e | drawCircle dx dy e =>
      simp only [Action.exprs, Action.directions, List.forall_mem_cons] at hsound hnear
      obtain ⟨hx, hy, he, -⟩ := hsound
      obtain ⟨hnx, hny, -⟩ := hnear
      rcases List.mem_append.1 hc with h | h
      · exact headings_structural hx hy hnx hny h
      · exact amount_structural he h
  | drawRectangle dx dy distance width height =>
      simp only [Action.exprs, Action.directions, List.forall_mem_cons] at hsound hnear
      obtain ⟨hx, hy, hdistance, hwidth, hheight, -⟩ := hsound
      obtain ⟨hnx, hny, -⟩ := hnear
      simp only [verdict, List.mem_append] at hc
      rcases hc with ((h | h) | h) | h
      · exact headings_structural hx hy hnx hny h
      · exact amount_structural hdistance h
      · exact amount_structural hwidth h
      · exact amount_structural hheight h
  | assign name e => exact typing_structural (hsound e (by simp [Action.exprs])) hc
  | goTo label condition =>
      simp only [verdict, if_pos (ht label rfl), List.nil_append] at hc
      exact need_structural (hsound condition (by simp [Action.exprs])) rfl hc
  | color | fill | label => cases hc
  | foreign form => exact absurd hform id

end Structural

lemma need_eq_nil {e : Expr} {ty : Ty} {otherwise : Complaint} :
    need types e ty otherwise = [] ↔ (typing types e).complaints = [] ∧ (typing types e).ty = ty := by
  rw [need, List.append_eq_nil_iff]
  refine and_congr_right fun _ => ?_
  split <;> simp_all

lemma complaints_of_heading {e : Expr} {command : Command} {axis : Axis}
    (h : heading types command axis e = []) : (typing types e).complaints = [] :=
  (List.append_eq_nil_iff.1 h).1

lemma complaints_of_headings {dx dy : Expr} {command : Command}
    (h : headings types command dx dy = []) :
    (typing types dx).complaints = [] ∧ (typing types dy).complaints = [] := by
  obtain ⟨hx, hy⟩ := List.append_eq_nil_iff.1 h
  exact ⟨complaints_of_heading hx, complaints_of_heading hy⟩

lemma complaints_of_amount {e : Expr} {command : Command} {argument : String}
    (h : amount types command argument e = []) : (typing types e).complaints = [] :=
  (need_eq_nil.1 h).1

/-- In an action without complaints, expressions have none. -/
lemma complaints_of_verdict {a : Action} (h : verdict types labels a = []) :
    ∀ e ∈ a.exprs, (typing types e).complaints = [] := by
  cases a with
  | spawn x y =>
      obtain ⟨hx, hy⟩ := List.append_eq_nil_iff.1 h
      simp [Action.exprs, (need_eq_nil.1 hx).1, (need_eq_nil.1 hy).1]
  | size e => simp [Action.exprs, (need_eq_nil.1 h).1]
  | drawLine dx dy e | drawCircle dx dy e =>
      obtain ⟨hdir, he⟩ := List.append_eq_nil_iff.1 h
      simp [Action.exprs, complaints_of_headings hdir, complaints_of_amount he]
  | drawRectangle dx dy distance width height =>
      simp only [verdict, List.append_eq_nil_iff] at h
      obtain ⟨⟨⟨hdir, hd⟩, hw⟩, hh⟩ := h
      simp [Action.exprs, complaints_of_headings hdir, complaints_of_amount hd,
        complaints_of_amount hw, complaints_of_amount hh]
  | assign name e =>
      have he : (typing types e).complaints = [] := h
      simp [Action.exprs, he]
  | goTo label condition =>
      obtain ⟨-, hcondition⟩ := List.append_eq_nil_iff.1 h
      simp [Action.exprs, (need_eq_nil.1 hcondition).1]
  | color | fill | label | foreign => exact List.forall_mem_nil _

/-- A jump without complaints finds its label, and its condition is a truth value. -/
lemma verdict_goTo {label : String} {condition : Expr}
    (h : verdict types labels (.goTo label condition) = []) :
    label ∈ labels ∧ (typing types condition).ty = .boolean := by
  obtain ⟨hlabel, hcondition⟩ := List.append_eq_nil_iff.1 h
  refine ⟨?_, (need_eq_nil.1 hcondition).2⟩
  by_contra hunknown
  simp [hunknown] at hlabel

lemma isForm_of_verdict {a : Action} (h : verdict types labels a = []) : a.IsForm := by
  cases a with
  | foreign form => cases h
  | _ => trivial

end Brushwork.Check
