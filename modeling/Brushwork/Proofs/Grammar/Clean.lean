import Brushwork.Proofs.Grammar.Closing

/-!
Readings without problems.

A problem that was noted is never taken back, so where none was noted in the end every reader on the
way found what it looked for:

* `Reader.Gives`: what a reader has done to the draft and what it has found if nothing was noted.
  `Reader.Quiet` is the case of a reader that leaves the draft alone. How deep the calls of readers
  were nested is left out of this (`Draft.flat`).
* `command_gives`, `label_gives`, `assign_gives`: the actions that are read, and how the draft enters
  them.
* `Draft.Tidy`: what holds of a draft between two statements. `Draft.Tidy.step` keeps it and
  `Draft.Tidy.readAll` carries it through a whole reading.
* `wellFormed_ofTokens`: a program that was read without problems is well formed.
-/

namespace Brushwork

/-- All calls inside fit their functions, and everything inside is an expression. -/
def Expr.Sound (e : Expr) : Prop := e.All CallFits ∧ e.All IsForm

/-- A literal direction keeps to one step. -/
def Expr.Near (e : Expr) : Prop := ∀ n, e.intLiteral? = some n → n = -1 ∨ n = 0 ∨ n = 1

/-- What can be said of an action that was read without problems, whatever stands around it. -/
structure Action.Sound (a : Action) : Prop where
  isForm : a.IsForm
  exprs : ∀ e ∈ a.exprs, e.Sound
  directions : ∀ e ∈ a.directions, e.Near

namespace Grammar

/-- The draft, but for the depth of the calls that were made for it. -/
def Draft.flat (d : Draft) : Draft := { d with depth := 0 }

lemma Draft.flat_add (d : Draft) (s : Stmt) : (d.add s).flat = d.flat.add s := by
  by_cases h : (s.action.isSpawn || d.hasSpawn || d.orderNoted) = true
  · simp only [flat, add, h, if_true]
  · simp only [flat, add, h, note]
    rfl

lemma Draft.flat_declare (d : Draft) (t : Token) : (d.declare t).flat = d.flat.declare t := by
  by_cases h : d.labels.contains t.name = true
  · simp only [flat, declare, h, if_true, note]
  · simp only [flat, declare, h]
    rfl

/-- How the draft `d'` enters an action that is read in the draft `d`, before the statement is
added: the cursor is put down only once, jumps leave their labels to be looked up later, and labels
are new. -/
def Draft.Enters (d : Draft) (a : Action) (d' : Draft) : Prop :=
  match a with
  | .spawn _ _ => d.hasSpawn = false ∧ d' = { d with hasSpawn := true }
  | .goTo name _ => ∃ t : Token, t.name = name ∧ d' = { d with references := d.references ++ [t] }
  | .label name =>
    d.labels.contains name = false ∧ d' = { d with labels := d.labels.put name d.statements.size }
  | _ => d' = d

namespace Reader

variable {α β : Type} {r : Reader α} {f : α → Reader β}

/-! ### Putting readers together -/

/-- If the reader finds something and nothing has been noted up to then, nothing had been noted
before, and the drafts and what was found stand to each other as `Q` says. -/
def Gives (r : Reader α) (Q : Draft → α → Draft → Prop) : Prop :=
  ∀ d ts d' v rest, r d ts = (d', .found v rest) → d'.problems = [] →
    d.problems = [] ∧ Q d.flat v d'.flat

/-- If the reader finds something and nothing has been noted up to then, the draft is as it was and
what was found has the property. -/
def Quiet (r : Reader α) (P : α → Prop) : Prop := r.Gives fun d v d' => d' = d ∧ P v

lemma Gives.mono {Q Q' : Draft → α → Draft → Prop} (hr : r.Gives Q)
    (h : ∀ d v d', Q d v d' → Q' d v d') : r.Gives Q' := by
  intro d ts d' v rest he hp
  obtain ⟨hd, hQ⟩ := hr d ts d' v rest he hp
  exact ⟨hd, h _ v _ hQ⟩

lemma Gives.bind {Q : Draft → α → Draft → Prop} {Q' : Draft → β → Draft → Prop} (hr : r.Gives Q)
    (hf : ∀ v, (f v).Gives fun d₁ w d' => ∀ d, Q d v d₁ → Q' d w d') : (r >>= f).Gives Q' := by
  intro d ts d' w rest h hp
  obtain ⟨d₁, v, rest₁, he, hb⟩ | ⟨d₁, p, rest₁, he, hb⟩ | ⟨d₁, he, hb⟩ := bind_cases r f d ts
  · rw [hb] at h
    obtain ⟨hd₁, hQ'⟩ := hf v d₁ rest₁ d' w rest h hp
    obtain ⟨hd, hQ⟩ := hr d ts d₁ v rest₁ he hd₁
    exact ⟨hd, hQ' _ hQ⟩
  · simp [hb] at h
  · simp [hb] at h

/-- After a reader that leaves the draft alone the next one begins where it would have begun. -/
lemma Quiet.gives {P : α → Prop} {Q : Draft → β → Draft → Prop} (hr : r.Quiet P)
    (hf : ∀ v, (f v).Gives fun d w d' => P v → Q d w d') : (r >>= f).Gives Q := by
  refine Gives.bind hr fun v => (hf v).mono ?_
  rintro d₁ w d' h d ⟨rfl, hP⟩
  exact h hP

lemma Quiet.bind {P : α → Prop} {Q : β → Prop} (hr : r.Quiet P)
    (hf : ∀ v, (f v).Quiet fun w => P v → Q w) : (r >>= f).Quiet Q :=
  hr.gives fun v => (hf v).mono fun _ _ _ h hP => ⟨h.1, h.2 hP⟩

lemma Quiet.mono {P Q : α → Prop} (hr : r.Quiet P) (h : ∀ v, P v → Q v) : r.Quiet Q :=
  Gives.mono hr fun _ v _ hv => ⟨hv.1, h v hv.2⟩

/-- A reader that leaves the draft alone whatever happens is quiet. -/
lemma quiet_of_unchanged {P : α → Prop} (h : ∀ d ts, (r d ts).1 = d)
    (hP : ∀ d ts v rest, (r d ts).2 = .found v rest → P v) : r.Quiet P := by
  intro d ts d' v rest he hp
  have hd := h d ts
  rw [he] at hd
  obtain rfl : d' = d := hd
  exact ⟨hp, rfl, hP d' ts v rest (by rw [he])⟩

lemma gives_pure {Q : Draft → α → Draft → Prop} {v : α} (h : ∀ d, Q d v d) :
    (pure v : Reader α).Gives Q := by
  intro d ts d' w rest he hp
  obtain ⟨rfl, ha⟩ := Prod.mk.inj (show (d, Answer.found v ts) = (d', .found w rest) from he)
  obtain ⟨rfl, -⟩ := Answer.found.inj ha
  exact ⟨hp, h d.flat⟩

lemma gives_update {f : Draft → Draft} {Q : Draft → Unit → Draft → Prop}
    (h : ∀ d, (f d).problems = [] → d.problems = [] ∧ Q d.flat () (f d).flat) :
    (update f).Gives Q := by
  intro d ts d' v rest he hp
  obtain ⟨rfl, -⟩ := Prod.mk.inj (show (f d, Answer.found () ts) = (d', .found v rest) from he)
  exact h d hp

/-! ### The parts of a statement -/

lemma quiet_expect (kind : Kind) (cause : Problem.Cause) :
    (expect kind cause).Quiet fun _ => True :=
  quiet_of_unchanged (fun _ _ => rfl) fun _ _ _ _ _ => trivial

lemma quiet_expectEither (k₁ k₂ : Kind) (cause : Problem.Cause) :
    (expectEither k₁ k₂ cause).Quiet fun _ => True := by
  refine quiet_of_unchanged (fun d ts => ?_) fun _ _ _ _ _ => trivial
  cases ts with
  | nil => rfl
  | cons t us =>
      rw [expectEither]
      split <;> rfl

lemma quiet_refuseIf (kind : Kind) (cause : Problem.Cause) :
    (refuseIf kind cause).Quiet fun _ => True := by
  refine quiet_of_unchanged (fun d ts => ?_) fun _ _ _ _ _ => trivial
  cases ts with
  | nil => rfl
  | cons t us =>
      rw [refuseIf]
      split <;> rfl

/-- A line that does not end where it should is noted. -/
lemma quiet_lineEnd (after : String) : (lineEnd after).Quiet fun _ => True := by
  intro d ts d' v rest h hp
  cases ts with
  | nil => simp [lineEnd] at h
  | cons t us =>
      rw [lineEnd] at h
      split at h
      · obtain ⟨rfl, -⟩ := Prod.mk.inj h
        exact ⟨hp, rfl, trivial⟩
      · split at h
        · obtain ⟨rfl, -⟩ := Prod.mk.inj h
          exact ⟨hp, rfl, trivial⟩
        · dsimp only at h
          split at h
          · obtain ⟨rfl, -⟩ := Prod.mk.inj h
            simp [Draft.note] at hp
          · simp at h

lemma quiet_expr : expr.Quiet Expr.Sound := by
  intro d ts d' e rest h hp
  obtain ⟨rfl, ha⟩ := Prod.mk.inj h
  have hacc : (whole ts).reading.Accounts ts (IsRead (.level .or)) := expression_accounts ts
  rw [Reading.Accounts, ha] at hacc
  obtain ⟨used, -, -, he⟩ := hacc
  obtain ⟨hd, hps⟩ := List.append_eq_nil_iff.1 hp
  refine ⟨hd, ?_, he.calls.1 hps, he.yields.all_isForm⟩
  simp only [Draft.flat, hps, List.append_nil]

lemma quiet_direction (axis : Axis) : (direction axis).Quiet fun e => e.Sound ∧ e.Near := by
  intro d ts d' e rest h hp
  cases ts with
  | nil => simp [direction] at h
  | cons start us =>
      rw [direction] at h
      split at h
      · next d₁ e₁ rest₁ he =>
        have hread := quiet_expr d (start :: us) d₁ e₁ rest₁ he
        split at h
        · next n hn =>
          split at h
          · next hrange =>
            obtain ⟨rfl, ha⟩ := Prod.mk.inj h
            obtain ⟨rfl, rfl⟩ := Answer.found.inj ha
            obtain ⟨hd, heq, hs⟩ := hread hp
            refine ⟨hd, heq, hs, fun k hk => ?_⟩
            rw [hn] at hk
            obtain rfl := Option.some.inj hk
            omega
          · simp at h
        · next hn =>
          obtain ⟨rfl, ha⟩ := Prod.mk.inj h
          obtain ⟨rfl, rfl⟩ := Answer.found.inj ha
          obtain ⟨hd, heq, hs⟩ := hread hp
          refine ⟨hd, heq, hs, fun k hk => ?_⟩
          rw [hn] at hk
          simp at hk
      · next d₁ a hne he =>
        obtain ⟨-, ha⟩ := Prod.mk.inj h
        exact absurd ha (hne e rest)

lemma quiet_firstArgument (c : Command) : (firstArgument c).Quiet Expr.Sound :=
  (quiet_expect _ _).bind fun _ => quiet_expr.mono fun _ h _ => h

lemma quiet_furtherArgument (c : Command) : (furtherArgument c).Quiet Expr.Sound :=
  (quiet_expect _ _).bind fun _ => quiet_expr.mono fun _ h _ => h

lemma quiet_endCommand (c : Command) (count : Nat) : (endCommand c count).Quiet fun _ => True := by
  have hclose : (closeArguments c count).Quiet fun _ => True :=
    (quiet_refuseIf _ _).bind fun _ => (quiet_expect _ _).mono fun _ _ _ => trivial
  exact hclose.bind fun _ => (quiet_lineEnd _).mono fun _ _ _ => trivial

lemma quiet_directions (c : Command) :
    (directions c).Quiet fun dir => (dir.1.Sound ∧ dir.1.Near) ∧ dir.2.Sound ∧ dir.2.Near := by
  refine (quiet_expect _ _).bind fun _ => (quiet_direction .x).bind fun dx => ?_
  refine (quiet_expect _ _).bind fun _ => (quiet_direction .y).bind fun dy => ?_
  exact gives_pure fun _ => ⟨rfl, fun hy _ hx _ => ⟨hx, hy⟩⟩

/-! ### The statements -/

/-- The action is sound, and the draft enters it. -/
def Entered (d : Draft) (a : Action) (d' : Draft) : Prop := a.Sound ∧ d.Enters a d'

lemma beginSpawn_gives : beginSpawn.Gives
    fun d _ d' => d.hasSpawn = false ∧ d' = { d with hasSpawn := true } := by
  intro d ts d' v rest h hp
  rw [beginSpawn] at h
  split at h
  · cases ts with
    | nil => simp [refuse, peek, bind] at h
    | cons t us => simp [refuse, peek, refuseAt, bind] at h
  · next hs =>
    obtain ⟨rfl, -⟩ := Prod.mk.inj h
    exact ⟨hp, by simpa [Draft.flat] using hs, rfl⟩

lemma spawn_gives : spawn.Gives Entered := by
  refine beginSpawn_gives.bind fun _ => ?_
  refine (quiet_firstArgument _).gives fun x => (quiet_furtherArgument _).gives fun y => ?_
  refine (quiet_endCommand _ _).gives fun _ => gives_pure ?_
  intro d₁ _ hy hx d hd
  exact ⟨⟨trivial, by simp [Action.exprs, hx, hy], by simp [Action.directions]⟩, hd⟩

lemma color_gives : color.Gives Entered := by
  refine (quiet_expect _ _).gives fun _ => (quiet_expectEither _ _ _).gives fun name => ?_
  refine (quiet_expect _ _).gives fun _ => (quiet_lineEnd _).gives fun _ => gives_pure ?_
  intro d _ _ _ _
  exact ⟨⟨trivial, by simp [Action.exprs], by simp [Action.directions]⟩, rfl⟩

lemma size_gives : size.Gives Entered := by
  refine (quiet_firstArgument _).gives fun e => (quiet_endCommand _ _).gives fun _ => gives_pure ?_
  intro d _ he
  exact ⟨⟨trivial, by simp [Action.exprs, he], by simp [Action.directions]⟩, rfl⟩

/-- The two commands with one argument behind their directions are read alike. -/
lemma drawn_gives (c : Command) {make : Expr → Expr → Expr → Action}
    (hform : ∀ x y e, (make x y e).IsForm) (hexprs : ∀ x y e, (make x y e).exprs = [x, y, e])
    (hdirections : ∀ x y e, (make x y e).directions = [x, y])
    (henters : ∀ x y e (d : Draft), d.Enters (make x y e) d) :
    (do
      let dir ← directions c
      let e ← furtherArgument c
      endCommand c 3
      return make dir.1 dir.2 e : Reader Action).Gives Entered := by
  refine (quiet_directions _).gives fun dir => (quiet_furtherArgument _).gives fun e => ?_
  refine (quiet_endCommand _ _).gives fun _ => gives_pure ?_
  intro d _ he hdir
  exact ⟨⟨hform _ _ _, by simp [hexprs, he, hdir], by simp [hdirections, hdir]⟩, henters _ _ _ d⟩

lemma drawLine_gives : drawLine.Gives Entered :=
  drawn_gives _ (fun _ _ _ => trivial) (fun _ _ _ => rfl) (fun _ _ _ => rfl) fun _ _ _ _ => rfl

lemma drawCircle_gives : drawCircle.Gives Entered :=
  drawn_gives _ (fun _ _ _ => trivial) (fun _ _ _ => rfl) (fun _ _ _ => rfl) fun _ _ _ _ => rfl

lemma drawRectangle_gives : drawRectangle.Gives Entered := by
  refine (quiet_directions _).gives fun dir => (quiet_furtherArgument _).gives fun e => ?_
  refine (quiet_furtherArgument _).gives fun w => (quiet_furtherArgument _).gives fun h => ?_
  refine (quiet_endCommand _ _).gives fun _ => gives_pure ?_
  intro d _ hh hw he hdir
  exact ⟨⟨trivial, by simp [Action.exprs, he, hw, hh, hdir], by simp [Action.directions, hdir]⟩, rfl⟩

lemma fill_gives : fill.Gives Entered := by
  refine (quiet_expect _ _).gives fun _ => (quiet_endCommand _ _).gives fun _ => gives_pure ?_
  intro d _ _
  exact ⟨⟨trivial, by simp [Action.exprs], by simp [Action.directions]⟩, rfl⟩

lemma target_gives : target.Gives
    fun d t d' => d' = { d with references := d.references ++ [t] } := by
  refine (quiet_expect _ _).gives fun _ => (quiet_expect _ _).gives fun t => ?_
  have hnote : (update fun d => { d with references := d.references ++ [t] }).Gives
      fun d _ d' => d' = { d with references := d.references ++ [t] } :=
    gives_update fun d hp => ⟨hp, rfl⟩
  refine (quiet_expect _ _).gives fun _ => hnote.bind fun _ => gives_pure ?_
  intro d₁ d hd _ _ _
  exact hd

lemma goTo_gives : goTo.Gives Entered := by
  have hcond : condition.Quiet Expr.Sound := by
    refine (quiet_expect _ _).bind fun _ => quiet_expr.bind fun e => ?_
    refine (quiet_expect _ _).bind fun _ => gives_pure ?_
    exact fun _ => ⟨rfl, fun _ he _ => he⟩
  refine target_gives.bind fun t => hcond.gives fun e => ?_
  refine (quiet_lineEnd _).gives fun _ => gives_pure ?_
  intro d₁ _ he d hd
  exact ⟨⟨trivial, by simp [Action.exprs, he], by simp [Action.directions]⟩, t, rfl, hd⟩

lemma label_gives (name : Token) : (label name).Gives Entered := by
  have hdeclare : (update (·.declare name)).Gives fun d _ d' => d.Enters (.label name.name) d' := by
    refine gives_update fun d hp => ?_
    rw [Draft.declare] at hp ⊢
    split at hp
    · simp [Draft.note] at hp
    · next h => exact ⟨hp, by simpa [Draft.flat] using h, by simp [h, Draft.flat]⟩
  refine hdeclare.bind fun _ => (quiet_lineEnd _).gives fun _ => gives_pure ?_
  intro d₁ _ d hd
  exact ⟨⟨trivial, by simp [Action.exprs], by simp [Action.directions]⟩, hd⟩

lemma assign_gives (name : Token) : (assign name).Gives Entered := by
  refine (quiet_expect _ _).gives fun _ => quiet_expr.gives fun e => ?_
  refine (quiet_lineEnd _).gives fun _ => gives_pure ?_
  intro d _ he _
  exact ⟨⟨trivial, by simp [Action.exprs, he], by simp [Action.directions]⟩, rfl⟩

lemma command_gives (c : Command) : (command c).Gives Entered := by
  cases c with
  | spawn => exact spawn_gives
  | color => exact color_gives
  | size => exact size_gives
  | drawLine => exact drawLine_gives
  | drawCircle => exact drawCircle_gives
  | drawRectangle => exact drawRectangle_gives
  | fill => exact fill_gives
  | goTo => exact goTo_gives

end Reader

/-! ### Drafts between two statements -/

/-- What a draft without problems holds between two statements. -/
structure Draft.Tidy (d : Draft) : Prop where
  order : d.orderNoted = false
  spawn : if d.hasSpawn then
      ∃ s rest, d.statements.toList = s :: rest ∧ s.action.isSpawn = true ∧
        ∀ r ∈ rest, r.action.isSpawn = false
    else d.statements.toList = []
  labels : ∀ name, d.labels.contains name = true ↔ name ∈ Program.labelNames d.statements.toList
  distinct : (Program.labelNames d.statements.toList).Nodup
  targets : ∀ s ∈ d.statements.toList, ∀ name, s.action.target? = some name →
    ∃ t ∈ d.references, t.name = name
  actions : ∀ s ∈ d.statements.toList, s.action.Sound

lemma Draft.tidy_empty : Draft.empty.Tidy := by
  refine ⟨rfl, ?_, fun name => ?_, ?_, ?_, ?_⟩
  · simp [Draft.empty]
  · simp [Draft.empty, Table.contains, Table.empty, Table.find?, Program.labelNames]
  · simp [Draft.empty, Program.labelNames]
  · simp [Draft.empty]
  · simp [Draft.empty]

/-- **A step without problems** passes an empty line, or adds a sound action that the draft enters. -/
theorem step_clean {d d' : Draft} {t : Token} {us rest : List Token}
    (h : step d t us = (d', some rest)) (hp : d'.problems = []) :
    d' = d ∨ ∃ (a : Action) (d₁ : Draft), d.problems = [] ∧ a.Sound ∧ d.flat.Enters a d₁.flat ∧
      d₁.problems = [] ∧ d' = d₁.add ⟨t.position.mark, a⟩ := by
  rw [step] at h
  split at h
  · exact .inl (Prod.mk.inj h).1.symm
  · split at h
    · next r hr =>
      have hgives : r.Gives Reader.Entered := by
        obtain ⟨c, -, rfl⟩ | ⟨-, rfl | rfl⟩ := statementAt_cases hr
        · exact Reader.command_gives c
        · exact Reader.label_gives t
        · exact Reader.assign_gives t
      -- a refusal would have been noted
      cases hread : r d us with
      | mk d₁ answer =>
          rw [hread] at h
          cases answer with
          | refused p rest' =>
              obtain ⟨rfl, -⟩ := Prod.mk.inj h
              simp [Draft.note] at hp
          | cut => simp [conclude] at h
          | found a rest' =>
              obtain ⟨rfl, -⟩ := Prod.mk.inj h
              have hp₁ : d₁.problems = [] := by
                simp only [Draft.add, Draft.note] at hp
                split at hp
                · exact hp
                · simp at hp
              obtain ⟨hd, hs, he⟩ := hgives d us d₁ a rest' hread hp₁
              exact .inr ⟨a, d₁, hd, hs, he, hp₁, rfl⟩
    · obtain ⟨rfl, -⟩ := Prod.mk.inj h
      simp [Draft.note] at hp

section Enters

variable {d d₁ : Draft} {a : Action}

/-- Nothing is touched but the mark of the cursor, the labels and the references. -/
lemma Draft.Enters.frame (h : d.Enters a d₁) :
    d₁ = { d with hasSpawn := d₁.hasSpawn, labels := d₁.labels, references := d₁.references } := by
  cases a with
  | spawn x y => rw [h.2]
  | goTo name e => obtain ⟨t, -, rfl⟩ := h; rfl
  | label name => rw [h.2]
  | _ => rw [show d₁ = d from h]

lemma Draft.Enters.statements (h : d.Enters a d₁) : d₁.statements = d.statements := by
  rw [h.frame]

lemma Draft.Enters.orderNoted (h : d.Enters a d₁) : d₁.orderNoted = d.orderNoted := by
  rw [h.frame]

lemma Draft.Enters.problems (h : d.Enters a d₁) : d₁.problems = d.problems := by
  rw [h.frame]

/-- Only putting the cursor down is remembered, and it is done once. -/
lemma Draft.Enters.hasSpawn (h : d.Enters a d₁) :
    if a.isSpawn then d.hasSpawn = false ∧ d₁.hasSpawn = true else d₁.hasSpawn = d.hasSpawn := by
  cases a with
  | spawn x y => exact ⟨h.1, by rw [h.2]⟩
  | goTo name e => obtain ⟨t, -, rfl⟩ := h; rfl
  | label name => rw [h.2]; rfl
  | _ => rw [show d₁ = d from h]; rfl

/-- Only labels are declared, and each one once. -/
lemma Draft.Enters.labels (h : d.Enters a d₁) :
    match a.label? with
    | some name => d.labels.contains name = false ∧
        ∀ n, d₁.labels.contains n = true ↔ n = name ∨ d.labels.contains n = true
    | none => d₁.labels = d.labels := by
  cases a with
  | spawn x y => rw [h.2]; rfl
  | goTo name e => obtain ⟨t, -, rfl⟩ := h; rfl
  | label name =>
      refine ⟨h.1, fun n => ?_⟩
      rw [h.2]
      by_cases hn : n = name <;> simp [Table.contains, Table.find?_put, hn]
  | _ => rw [show d₁ = d from h]; rfl

/-- Behind the action the labels are those before it and the one that it declares. -/
lemma Draft.Enters.contains_labels (h : d.Enters a d₁) {names : List String}
    (hd : ∀ name, d.labels.contains name = true ↔ name ∈ names) (name : String) :
    d₁.labels.contains name = true ↔ name ∈ names ++ a.label?.toList := by
  have hlabels := h.labels
  cases hlabel : a.label? with
  | none =>
      rw [hlabel] at hlabels
      simpa [hlabels] using hd name
  | some new =>
      rw [hlabel] at hlabels
      simp [hlabels.2 name, hd name, or_comm]

/-- References stay, and that of a jump is among them. -/
lemma Draft.Enters.references (h : d.Enters a d₁) :
    (∀ t ∈ d.references, t ∈ d₁.references) ∧
      ∀ name, a.target? = some name → ∃ t ∈ d₁.references, t.name = name := by
  cases a with
  | spawn x y => rw [h.2]; simp [Action.target?]
  | goTo name e =>
      obtain ⟨t, ht, rfl⟩ := h
      refine ⟨fun u hu => List.mem_append_left _ hu, fun n hn => ?_⟩
      exact ⟨t, by simp, ht.trans (Option.some.inj hn)⟩
  | label name => rw [h.2]; simp [Action.target?]
  | _ => rw [show d₁ = d from h]; simp [Action.target?]

end Enters

/-- An addition that is not noted only adds, and the cursor is down behind it. -/
lemma Draft.add_clean {d : Draft} {s : Stmt} (hp : (d.add s).problems = []) :
    d.add s = { d with statements := d.statements.push s } ∧
      (s.action.isSpawn = true ∨ d.hasSpawn = true ∨ d.orderNoted = true) := by
  by_cases h : (s.action.isSpawn || d.hasSpawn || d.orderNoted) = true
  · refine ⟨by rw [Draft.add, if_pos h], ?_⟩
    simpa [or_assoc] using h
  · rw [Draft.add, if_neg h] at hp
    simp [Draft.note] at hp

lemma Program.labelNames_append (ss ss' : List Stmt) :
    Program.labelNames (ss ++ ss') = Program.labelNames ss ++ Program.labelNames ss' :=
  List.filterMap_append

lemma Program.labelNames_concat (ss : List Stmt) (s : Stmt) :
    Program.labelNames (ss ++ [s]) = Program.labelNames ss ++ s.action.label?.toList := by
  rw [Program.labelNames_append]
  congr 1

section Tidy

variable {d d₁ : Draft} {a : Action} {m : Mark}

/-- The cursor: the action is the first one, or the first one came before. -/
lemma Draft.Tidy.spawn_add (hd : d.Tidy) (he : d.Enters a d₁)
    (hdown : a.isSpawn = true ∨ d₁.hasSpawn = true) :
    d₁.hasSpawn = true ∧ ∃ s rest, d.statements.toList ++ [⟨m, a⟩] = s :: rest ∧
      s.action.isSpawn = true ∧ ∀ r ∈ rest, r.action.isSpawn = false := by
  have hspawn := he.hasSpawn
  have hbefore := hd.spawn
  by_cases ha : a.isSpawn = true
  · rw [if_pos ha] at hspawn
    rw [if_neg (by simp [hspawn.1])] at hbefore
    rw [hbefore]
    exact ⟨hspawn.2, ⟨m, a⟩, [], rfl, ha, List.forall_mem_nil _⟩
  · rw [if_neg ha] at hspawn
    have hs₁ : d₁.hasSpawn = true := hdown.resolve_left ha
    rw [if_pos (hspawn ▸ hs₁)] at hbefore
    obtain ⟨s, rest, hcons, hfirst, hrest⟩ := hbefore
    refine ⟨hs₁, s, rest ++ [⟨m, a⟩], by rw [hcons]; rfl, hfirst, ?_⟩
    exact List.forall_mem_append.2 ⟨hrest, List.forall_mem_singleton.2 (by simpa using ha)⟩

/-- A label that is entered is a new one. -/
lemma Draft.Tidy.distinct_add (hd : d.Tidy) (he : d.Enters a d₁) :
    (Program.labelNames d.statements.toList ++ a.label?.toList).Nodup := by
  have hlabels := he.labels
  cases h : a.label? with
  | none => simpa using hd.distinct
  | some new =>
      rw [h] at hlabels
      refine List.nodup_append.2 ⟨hd.distinct, by simp, ?_⟩
      rintro name hname new' hnew rfl
      obtain rfl : name = new := by simpa using hnew
      exact absurd (hlabels.1.symm.trans ((hd.labels name).2 hname)) (by simp)

/-- A tidy draft stays tidy when an action that it enters is added. -/
lemma Draft.Tidy.add (hd : d.Tidy) (hs : a.Sound) (he : d.Enters a d₁)
    (hp : (d₁.add ⟨m, a⟩).problems = []) : (d₁.add ⟨m, a⟩).Tidy := by
  obtain ⟨hadd, hdown⟩ := Draft.add_clean hp
  have hlist : (d₁.add ⟨m, a⟩).statements.toList = d.statements.toList ++ [⟨m, a⟩] := by
    rw [hadd, he.statements]
    simp
  have hnames : Program.labelNames (d₁.add ⟨m, a⟩).statements.toList =
      Program.labelNames d.statements.toList ++ a.label?.toList := by
    rw [hlist, Program.labelNames_concat]
  refine ⟨?order, ?spawn, ?labels, ?distinct, ?targets, ?actions⟩
  case order =>
    rw [hadd]
    exact he.orderNoted.trans hd.order
  case spawn =>
    obtain ⟨hs₁, hfirst⟩ := hd.spawn_add (m := m) he
      (by simpa [he.orderNoted, hd.order] using hdown)
    rw [hlist, hadd, if_pos hs₁]
    exact hfirst
  case labels =>
    rw [hnames, hadd]
    exact he.contains_labels hd.labels
  case distinct =>
    rw [hnames]
    exact hd.distinct_add he
  case targets =>
    rw [hlist, hadd]
    refine List.forall_mem_append.2 ⟨fun s hmem name hname => ?_, ?_⟩
    · obtain ⟨t, ht, htn⟩ := hd.targets s hmem name hname
      exact ⟨t, he.references.1 t ht, htn⟩
    · exact List.forall_mem_singleton.2 he.references.2
  case actions =>
    rw [hlist]
    exact List.forall_mem_append.2 ⟨hd.actions, List.forall_mem_singleton.2 hs⟩

end Tidy

lemma Draft.tidy_flat {d : Draft} : d.flat.Tidy ↔ d.Tidy :=
  ⟨fun h => ⟨h.order, h.spawn, h.labels, h.distinct, h.targets, h.actions⟩,
    fun h => ⟨h.order, h.spawn, h.labels, h.distinct, h.targets, h.actions⟩⟩

/-- A step without problems has found none before it, and keeps the draft tidy. -/
lemma Draft.Tidy.step {d d' : Draft} {t : Token} {us rest : List Token}
    (h : Grammar.step d t us = (d', some rest)) (hp : d'.problems = []) :
    d.problems = [] ∧ (d.Tidy → d'.Tidy) := by
  obtain rfl | ⟨a, d₁, hd, hs, he, -, rfl⟩ := step_clean h hp
  · exact ⟨hp, id⟩
  · refine ⟨hd, fun htidy => Draft.tidy_flat.1 ?_⟩
    rw [Draft.flat_add]
    refine (Draft.tidy_flat.2 htidy).add hs he ?_
    rw [← Draft.flat_add]
    exact hp

/-- **A reading without problems keeps the draft tidy.** -/
theorem Draft.Tidy.readAll {d d' : Draft} {ts rest : List Token}
    (h : Grammar.readAll d ts = (d', some rest)) (hp : d'.problems = []) :
    d.problems = [] ∧ (d.Tidy → d'.Tidy) := by
  fun_induction Grammar.readAll d ts with
  | case1 d => simp at h
  | case2 d t us ht =>
      obtain ⟨rfl, -⟩ := Prod.mk.inj h
      exact ⟨hp, id⟩
  | case3 d t us ht d₁ rest₁ hstep ih =>
      obtain ⟨hp₁, htidy⟩ := ih h
      obtain ⟨hd, htidy₁⟩ := Draft.Tidy.step hstep hp₁
      exact ⟨hd, htidy ∘ htidy₁⟩
  | case4 d t us ht d₁ hstep => simp at h

/-! ### Programs -/

/-- Where the end of the reading finds nothing to note, nothing was noted before, the cursor is put
down and all references are declared. -/
lemma Draft.finish_clean {d : Draft} (hp : d.finish.problems = []) :
    d.problems = [] ∧ d.hasSpawn = true ∧ ∀ t ∈ d.references, d.labels.contains t.name = true := by
  simp only [Draft.finish, List.append_eq_nil_iff, List.map_eq_nil_iff, List.filter_eq_nil_iff] at hp
  obtain ⟨⟨hd, hs⟩, hr⟩ := hp
  refine ⟨hd, ?_, fun t ht => by simpa using hr t ht⟩
  by_contra h
  simp [h] at hs

/-- **A program that was read without problems is well formed**, and so is each of its statements by
itself. -/
theorem wellFormed_ofTokens {ts : List Token} (hclosed : ∃ t ∈ ts, t.kind = .eof)
    (hp : (Parse.ofTokens ts).errors = []) :
    Program.WellFormed (Parse.ofTokens ts).program.statements.toList ∧
      ∀ s ∈ (Parse.ofTokens ts).program.statements.toList, s.action.Sound := by
  obtain ⟨d, rest, hread⟩ := readAll_of_closed { Draft.empty with statements := #[] } hclosed
  have hparse : Parse.ofTokens ts = ⟨d.finish, some rest⟩ := by
    rw [Parse.ofTokens, Parse.resume, hread]
  rw [hparse] at hp ⊢
  obtain ⟨hd, hspawn, hrefs⟩ := Draft.finish_clean (List.map_eq_nil_iff.1 hp)
  have htidy : d.Tidy := (Draft.Tidy.readAll hread hd).2 Draft.tidy_empty
  have hfirst := htidy.spawn
  rw [if_pos hspawn] at hfirst
  refine ⟨⟨hfirst, htidy.distinct, ?_, ?_, ?_⟩, htidy.actions⟩
  · intro s hs name hname
    obtain ⟨t, ht, rfl⟩ := htidy.targets s hs name hname
    exact (htidy.labels t.name).1 (hrefs t ht)
  · exact fun s hs e he => ((htidy.actions s hs).exprs e he).1
  · exact fun s hs e he => (htidy.actions s hs).directions e he

end Grammar

end Brushwork
