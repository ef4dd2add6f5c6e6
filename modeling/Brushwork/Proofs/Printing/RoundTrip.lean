import Brushwork.Proofs.Check.Acceptance
import Brushwork.Proofs.Printing.Spelling

/-!
Printing and reading.

* `Reader.Takes`: a reader takes pieces off the front of a row of tokens. `Takes.bind` puts readers in
  a row, and the other lemmas go through the readers of statements.
* `step_found`: the tokens of a printed statement are read back as that statement.
* `Draft.Holds`: a draft holds the statements read so far, up to places. `Draft.Holds.readAll` carries
  it through a printed program.
* `print_reads`: every program that has a text is read back from it.
-/

namespace Brushwork

/-- The mark that closes a row of tokens, without its place. -/
def Piece.eof : Piece := ⟨.eof, "", none⟩

namespace Grammar

/-! ### Ends of expressions and lines -/

/-- The next piece ends an expression. -/
def Stops (qs : List Piece) : Prop :=
  ∃ q rest, qs = q :: rest ∧ q.kind ≠ .openParen ∧ ∀ o, q.kind ≠ .op o

lemma stops_comma (qs : List Piece) : Stops (.comma :: qs) := ⟨_, qs, rfl, nofun, nofun⟩

lemma stops_closeParen (qs : List Piece) : Stops (.closeParen :: qs) := ⟨_, qs, rfl, nofun, nofun⟩

/-- The line ends with the pieces of the first row, and the second follows: with a line end, or in
front of the closing mark. -/
inductive LineEnd : List Piece → List Piece → Prop
  | newline (qs : List Piece) : LineEnd [.newline] qs
  | eof (qs : List Piece) : LineEnd [] (.eof :: qs)

lemma LineEnd.stops {ps qs : List Piece} (h : LineEnd ps qs) : Stops (ps ++ qs) := by
  cases h with
  | newline => exact ⟨_, qs, rfl, nofun, nofun⟩
  | eof rest => exact ⟨_, rest, rfl, nofun, nofun⟩

namespace Reader

/-! ### Readers that take pieces -/

variable {α β : Type} {d : Draft} {ps ps' qs : List Piece}

/-- Off a row of tokens that looks like `ps` and then `qs`, the reader takes the tokens of `ps`, and
what it finds and the draft behind it are as `Q` says, if the draft was `d` before. The depth of calls
is left out of both drafts. -/
def Takes (r : Reader α) (d : Draft) (ps qs : List Piece) (Q : α → Draft → Prop) : Prop :=
  ∀ c : Draft, c.flat = d → ∀ ts : List Token, ts.map Token.piece = ps ++ qs →
    ∃ v c' us, r c ts = (c', .found v us) ∧ us.map Token.piece = qs ∧ Q v c'.flat

/-- What is found has the property, and the draft is as it was. -/
def Only (d : Draft) (P : α → Prop) (v : α) (d' : Draft) : Prop := d' = d ∧ P v

/-- The second reader of a row goes on where the first has found something. -/
lemma bind_of_found {r : Reader α} {f : α → Reader β} {d' : Draft} {v : α} {ts rest : List Token}
    (h : r d ts = (d', .found v rest)) : (r >>= f) d ts = f v d' rest := by
  simp only [bind, h]

/-- **Readers in a row** take pieces in a row. -/
lemma Takes.bind {r : Reader α} {f : α → Reader β} {Q : α → Draft → Prop} {R : β → Draft → Prop}
    (hr : r.Takes d ps (ps' ++ qs) Q) (hf : ∀ v d', Q v d' → (f v).Takes d' ps' qs R) :
    (r >>= f).Takes d (ps ++ ps') qs R := by
  intro c hc ts hts
  rw [List.append_assoc] at hts
  obtain ⟨v, c₁, us, hread, hus, hQ⟩ := hr c hc ts hts
  obtain ⟨w, c₂, vs, hread', hvs, hR⟩ := hf v c₁.flat hQ c₁ rfl us hus
  exact ⟨w, c₂, vs, (bind_of_found hread).trans hread', hvs, hR⟩

/-- After a reader that leaves the draft alone the next one begins where it would have begun. -/
lemma Takes.quiet {r : Reader α} {f : α → Reader β} {P : α → Prop} {R : β → Draft → Prop}
    (hr : r.Takes d ps (ps' ++ qs) (Only d P)) (hf : ∀ v, P v → (f v).Takes d ps' qs R) :
    (r >>= f).Takes d (ps ++ ps') qs R := by
  refine Takes.bind hr ?_
  rintro v _ ⟨rfl, hv⟩
  exact hf v hv

/-- The last reader of a row, and what is made of what it finds. -/
lemma takes_return {r : Reader α} {g : α → β} {P : α → Prop} {R : β → Draft → Prop}
    (hr : r.Takes d ps qs (Only d P)) (hR : ∀ v, P v → R (g v) d) :
    (r >>= fun v => pure (g v)).Takes d ps qs R := by
  have hpure : ∀ v, P v → (pure (g v) : Reader β).Takes d [] qs R := by
    rintro v hv c rfl ts hts
    exact ⟨g v, c, ts, rfl, hts, hR v hv⟩
  intro c hc ts hts
  rw [← List.append_nil ps] at hts
  exact Takes.quiet hr hpure c hc ts hts

lemma takes_updated {f : Draft → Draft} {g : Unit → Reader β} {R : β → Draft → Prop}
    (hf : ∀ c : Draft, (f c).flat = f c.flat) (h : (g ()).Takes (f d) ps qs R) :
    (update f >>= g).Takes d ps qs R := by
  rintro c rfl ts hts
  exact h (f c) (hf c) ts hts

lemma takes_expect {p : Piece} {kind : Kind} (hp : p.kind = kind) (cause : Problem.Cause) :
    (expect kind cause).Takes d [p] qs (Only d fun t => t.piece = p) := by
  intro c hc ts hts
  obtain ⟨t, us, rfl, ht, hus⟩ := List.map_eq_cons_iff.1 hts
  refine ⟨t, c, us, ?_, hus, hc, ht⟩
  rw [expect, expect_found ((kind_of_piece ht).trans hp)]

/-- One token, and then the others. -/
lemma takes_token {p : Piece} {kind : Kind} {cause : Problem.Cause} {f : Token → Reader β}
    {R : β → Draft → Prop} (hp : p.kind = kind)
    (hf : ∀ t, t.piece = p → (f t).Takes d ps qs R) :
    (expect kind cause >>= f).Takes d (p :: ps) qs R :=
  Takes.quiet (takes_expect hp cause) hf

/-- A token of another kind is not refused. -/
lemma takes_unrefused {p : Piece} {kind : Kind} {cause : Problem.Cause} {f : Unit → Reader β}
    {R : β → Draft → Prop} (hp : p.kind ≠ kind) (hf : (f ()).Takes d (p :: ps) qs R) :
    (refuseIf kind cause >>= f).Takes d (p :: ps) qs R := by
  intro c hc ts hts
  obtain ⟨v, c', us, hread, hus, hR⟩ := hf c hc ts hts
  refine ⟨v, c', us, ?_, hus, hR⟩
  obtain ⟨t, ts, rfl, ht, -⟩ := List.map_eq_cons_iff.1 hts
  have hpass : refuseIf kind cause c (t :: ts) = (c, .found () (t :: ts)) := by
    rw [refuseIf, if_neg (by rwa [kind_of_piece ht])]
  exact (bind_of_found hpass).trans hread

lemma takes_lineEnd (after : String) (h : LineEnd ps qs) :
    (lineEnd after).Takes d ps qs (Only d fun _ => True) := by
  intro c hc ts hts
  cases h with
  | newline =>
      obtain ⟨t, us, rfl, ht, hus⟩ := List.map_eq_cons_iff.1 hts
      have hkind : t.kind = .newline := kind_of_piece ht
      refine ⟨(), c, us, ?_, hus, hc, trivial⟩
      rw [lineEnd, if_pos hkind]
  | eof rest =>
      obtain ⟨t, us, rfl, ht, hus⟩ := List.map_eq_cons_iff.1 hts
      have hkind : t.kind = .eof := kind_of_piece ht
      refine ⟨(), c, t :: us, ?_, hts, hc, trivial⟩
      rw [lineEnd, if_neg (by simp [hkind]), if_pos hkind]

/-! ### Expressions -/

/-- An expression that has a text and whose calls fit. -/
structure Printable (e : Expr) : Prop where
  graded : e.Graded (.level .or)
  calls : e.All Expr.CallFits

/-- The expression differs from `e` in places only. -/
def Alike (e e' : Expr) : Prop := e'.bare = e.bare

lemma takes_expr {e : Expr} (he : Printable e) (hqs : Stops qs) :
    expr.Takes d e.pieces qs (Only d (Alike e)) := by
  intro c hc ts hts
  obtain ⟨us, vs, rfl, hus, hvs⟩ := List.map_eq_append_iff.1 hts
  obtain ⟨q, rest, rfl, hopen, hop⟩ := hqs
  obtain ⟨t, ws, rfl, ht, hws⟩ := List.map_eq_cons_iff.1 hvs
  obtain ⟨e', hyields, hbare⟩ := (he.graded.spells he.calls).1 us hus
  have hfit : e'.All Expr.CallFits := by
    rw [← Expr.all_callFits_bare, hbare, Expr.all_callFits_bare]
    exact he.calls
  have hlevel : level? t = none := by
    rw [level?]
    split
    · next o ho => exact absurd ((kind_of_piece ht).symm.trans ho) (hop o)
    · rfl
  rw [← kind_of_piece ht] at hopen
  have hfound : (whole (us ++ t :: ws)).reading = ⟨[], .found e' (t :: ws)⟩ :=
    expression_found hyields hfit hopen hlevel ws
  refine ⟨e', { c with depth := max c.depth (whole (us ++ t :: ws)).depth }, t :: ws, ?_, hvs, hc,
    hbare⟩
  simp only [expr, hfound, List.append_nil]

lemma takes_direction {e : Expr} (axis : Axis) (he : Printable e) (hnear : e.Near)
    (hqs : Stops qs) : (direction axis).Takes d e.pieces qs (Only d (Alike e)) := by
  intro c hc ts hts
  obtain ⟨e', c', us, hread, hus, hc', hbare⟩ := takes_expr he hqs c hc ts hts
  refine ⟨e', c', us, ?_, hus, hc', hbare⟩
  have hliteral : e'.intLiteral? = e.intLiteral? := by
    rw [← Expr.intLiteral?_bare, hbare, Expr.intLiteral?_bare]
  cases ts with
  | nil =>
      obtain ⟨q, rest, rfl, -⟩ := hqs
      simp at hts
  | cons start ts =>
      simp only [direction, hread, hliteral]
      cases hn : e.intLiteral? with
      | none => rfl
      | some n =>
          have hrange := hnear n hn
          dsimp only
          rw [if_pos (by omega)]

/-! ### The parts of a command -/

lemma takes_firstArgument {e : Expr} (c : Command) (he : Printable e) (hqs : Stops qs) :
    (firstArgument c).Takes d (.openParen :: e.pieces) qs (Only d (Alike e)) :=
  takes_token rfl fun _ _ => takes_expr he hqs

lemma takes_furtherArgument {e : Expr} (c : Command) (he : Printable e) (hqs : Stops qs) :
    (furtherArgument c).Takes d (.comma :: e.pieces) qs (Only d (Alike e)) :=
  takes_token rfl fun _ _ => takes_expr he hqs

lemma takes_endCommand (c : Command) (count : Nat) (h : LineEnd ps qs) :
    (endCommand c count).Takes d (.closeParen :: ps) qs (Only d fun _ => True) := by
  have hclose : (closeArguments c count).Takes d [.closeParen] (ps ++ qs)
      (Only d fun t => t.piece = .closeParen) :=
    takes_unrefused nofun (takes_expect rfl _)
  exact Takes.quiet hclose fun _ _ => takes_lineEnd _ h

lemma takes_directions {dx dy : Expr} (c : Command) (hx : Printable dx) (hy : Printable dy)
    (hx' : dx.Near) (hy' : dy.Near) (hqs : Stops qs) :
    (directions c).Takes d (.openParen :: (dx.pieces ++ .comma :: dy.pieces)) qs
      (Only d fun v => Alike dx v.1 ∧ Alike dy v.2) := by
  refine takes_token rfl fun _ _ => ?_
  refine Takes.quiet (takes_direction _ hx hx' (stops_comma _)) fun x hx => ?_
  refine takes_token rfl fun _ _ => ?_
  exact takes_return (takes_direction _ hy hy' hqs) fun y hy => ⟨rfl, hx, hy⟩

/-! ### Statements, each behind its first token -/

/-- The action differs from `a` in places only, and the draft enters it. -/
def Restores (d : Draft) (a a' : Action) (d' : Draft) : Prop := a'.bare = a.bare ∧ d.Enters a d'

lemma beginSpawn_takes {f : Unit → Reader β} {R : β → Draft → Prop} (hd : d.hasSpawn = false)
    (hf : (f ()).Takes { d with hasSpawn := true } ps qs R) : (beginSpawn >>= f).Takes d ps qs R := by
  rintro c rfl ts hts
  obtain ⟨v, c', us, hread, hus, hR⟩ := hf { c with hasSpawn := true } rfl ts hts
  have hfirst : c.hasSpawn = false := hd
  have hbegin : beginSpawn c ts = ({ c with hasSpawn := true }, .found () ts) := by
    rw [beginSpawn, if_neg (by simp [hfirst])]
  exact ⟨v, c', us, (bind_of_found hbegin).trans hread, hus, hR⟩

lemma spawn_takes {x y : Expr} (hx : Printable x) (hy : Printable y) (hd : d.hasSpawn = false)
    (h : LineEnd ps qs) :
    spawn.Takes d (.openParen :: x.pieces ++ (.comma :: y.pieces ++ .closeParen :: ps)) qs
      (Restores d (.spawn x y)) := by
  refine beginSpawn_takes hd ?_
  refine Takes.quiet (takes_firstArgument _ hx (stops_comma _)) fun x' hx' => ?_
  refine Takes.quiet (takes_furtherArgument _ hy (stops_closeParen _)) fun y' hy' => ?_
  refine takes_return (takes_endCommand _ _ h) fun _ _ => ⟨?_, hd, rfl⟩
  rw [Action.bare, Action.bare, hx', hy']

lemma color_takes {name : String} (h : LineEnd ps qs) :
    color.Takes d (.openParen :: .quoted name :: .closeParen :: ps) qs
      (Restores d (.color name)) := by
  have hname : (expectEither .string .ident .colorName).Takes d [.quoted name] (.closeParen :: ps ++ qs)
      (Only d fun t => t.piece = .quoted name) := by
    intro c hc ts hts
    obtain ⟨t, us, rfl, ht, hus⟩ := List.map_eq_cons_iff.1 hts
    refine ⟨t, c, us, ?_, hus, hc, ht⟩
    rw [expectEither, if_pos (.inl (kind_of_piece ht))]
  refine takes_token rfl fun _ _ => ?_
  refine Takes.quiet hname fun t ht => ?_
  refine takes_token rfl fun _ _ => ?_
  refine takes_return (takes_lineEnd _ h) fun _ _ => ⟨?_, rfl⟩
  rw [Token.name, literal_of_piece ht]
  rfl

lemma size_takes {value : Expr} (he : Printable value) (h : LineEnd ps qs) :
    size.Takes d (.openParen :: value.pieces ++ .closeParen :: ps) qs
      (Restores d (.size value)) := by
  refine Takes.quiet (takes_firstArgument _ he (stops_closeParen _)) fun e' he' => ?_
  refine takes_return (takes_endCommand _ _ h) fun _ _ => ⟨?_, rfl⟩
  rw [Action.bare, Action.bare, he']

lemma fill_takes (h : LineEnd ps qs) :
    fill.Takes d (.openParen :: .closeParen :: ps) qs (Restores d .fill) := by
  refine takes_token rfl fun _ _ => ?_
  exact takes_return (takes_endCommand _ _ h) fun _ _ => ⟨rfl, rfl⟩

section Draw

variable {dx dy : Expr}

/-- The two commands with one argument behind their directions are read back alike. -/
lemma drawn_takes (c : Command) (make : Expr → Expr → Expr → Action)
    (hbare : ∀ x y e, (make x y e).bare = make x.bare y.bare e.bare)
    (henters : ∀ x y e, d.Enters (make x y e) d) {e : Expr} (hx : Printable dx) (hy : Printable dy)
    (he : Printable e) (hx' : dx.Near) (hy' : dy.Near) (h : LineEnd ps qs) :
    (do
      let dir ← directions c
      let e ← furtherArgument c
      endCommand c 3
      return make dir.1 dir.2 e : Reader Action).Takes d
      (.openParen :: (dx.pieces ++ .comma :: dy.pieces) ++ (.comma :: e.pieces ++ .closeParen :: ps))
      qs (Restores d (make dx dy e)) := by
  refine Takes.quiet (takes_directions _ hx hy hx' hy' (stops_comma _)) fun v hv => ?_
  refine Takes.quiet (takes_furtherArgument _ he (stops_closeParen _)) fun e' he' => ?_
  refine takes_return (takes_endCommand _ _ h) fun _ _ => ⟨?_, henters _ _ _⟩
  rw [hbare, hbare, hv.1, hv.2, he']

lemma drawRectangle_takes {distance width height : Expr} (hx : Printable dx) (hy : Printable dy)
    (hd : Printable distance) (hw : Printable width) (hh : Printable height) (hx' : dx.Near)
    (hy' : dy.Near) (h : LineEnd ps qs) :
    drawRectangle.Takes d (.openParen :: (dx.pieces ++ .comma :: dy.pieces) ++
      (.comma :: distance.pieces ++ (.comma :: width.pieces ++
        (.comma :: height.pieces ++ .closeParen :: ps)))) qs
      (Restores d (.drawRectangle dx dy distance width height)) := by
  refine Takes.quiet (takes_directions _ hx hy hx' hy' (stops_comma _)) fun v hv => ?_
  refine Takes.quiet (takes_furtherArgument _ hd (stops_comma _)) fun d' hd' => ?_
  refine Takes.quiet (takes_furtherArgument _ hw (stops_comma _)) fun w' hw' => ?_
  refine Takes.quiet (takes_furtherArgument _ hh (stops_closeParen _)) fun h' hh' => ?_
  refine takes_return (takes_endCommand _ _ h) fun _ _ => ⟨?_, rfl⟩
  rw [Action.bare, Action.bare, hv.1, hv.2, hd', hw', hh']

end Draw

lemma name_of_piece {t : Token} {name : String} (hname : IsName name) (ht : t.piece = .word name) :
    t.name = name := by
  have hliteral : t.literal = some (.text name) := by
    rw [literal_of_piece ht, Piece.word, hname.ofWord_eq]
    rfl
  rw [Token.name, hliteral]
  rfl

lemma target_takes {name : String} (hname : IsName name) :
    target.Takes d [.openBracket, .word name, .closeBracket] qs
      (fun t d' => t.name = name ∧ d' = { d with references := d.references ++ [t] }) := by
  refine takes_token rfl fun _ _ => ?_
  refine takes_token hname.ofWord_eq fun t ht => ?_
  refine takes_token rfl fun _ _ => takes_updated (fun _ => rfl) ?_
  exact fun c hc ts hts => ⟨t, c, ts, rfl, hts, name_of_piece hname ht, hc⟩

lemma condition_takes {e : Expr} (he : Printable e) :
    condition.Takes d (.openParen :: (e.pieces ++ [.closeParen])) qs (Only d (Alike e)) := by
  refine takes_token rfl fun _ _ => ?_
  refine Takes.quiet (takes_expr he (stops_closeParen _)) fun e' he' => ?_
  exact takes_return (takes_expect rfl _) fun _ _ => ⟨rfl, he'⟩

lemma goTo_takes {name : String} {e : Expr} (hname : IsName name) (he : Printable e)
    (h : LineEnd ps qs) :
    goTo.Takes d ([.openBracket, .word name, .closeBracket] ++
      (.openParen :: (e.pieces ++ [.closeParen]) ++ ps)) qs (Restores d (.goTo name e)) := by
  refine Takes.bind (target_takes hname) ?_
  rintro t d' ⟨ht, hd'⟩
  refine Takes.quiet (condition_takes he) fun e' he' => ?_
  refine takes_return (takes_lineEnd _ h) fun _ _ => ⟨?_, t, ht, hd'⟩
  rw [Action.bare, Action.bare, ht, he']

lemma label_takes {t : Token} {name : String} (hname : IsName name) (ht : t.piece = .word name)
    (hd : d.labels.contains name = false) (h : LineEnd ps qs) :
    (label t).Takes d ps qs (Restores d (.label name)) := by
  have htname := name_of_piece hname ht
  have hdeclare : d.declare t = { d with labels := d.labels.put name d.statements.size } := by
    rw [Draft.declare, htname, if_neg (by simp [hd])]
  refine takes_updated (fun c => c.flat_declare t) ?_
  refine takes_return (takes_lineEnd _ h) fun _ _ => ⟨?_, hd, hdeclare⟩
  rw [htname]

lemma assign_takes {t : Token} {name : String} {e : Expr} (hname : IsName name)
    (ht : t.piece = .word name) (he : Printable e) (h : LineEnd ps qs) :
    (assign t).Takes d (.arrow :: (e.pieces ++ ps)) qs (Restores d (.assign name e)) := by
  refine takes_token rfl fun _ _ => ?_
  refine Takes.quiet (takes_expr he h.stops) fun e' he' => ?_
  refine takes_return (takes_lineEnd _ h) fun _ _ => ⟨?_, rfl⟩
  rw [Action.bare, Action.bare, name_of_piece hname ht, he']

end Reader

/-! ### Whole statements -/

open Reader

variable {d : Draft} {ps qs : List Piece}

/-- The action may be read with this draft: the cursor is put down once, and labels are new. -/
def Draft.Admits (d : Draft) : Action → Prop
  | .spawn _ _ => d.hasSpawn = false
  | .label name => d.labels.contains name = false
  | _ => True

lemma Draft.Admits.flat {a : Action} (h : d.Admits a) : d.flat.Admits a := by
  cases a <;> exact h

/-- What there is to know about an action that is printed. -/
structure Readable (a : Action) : Prop where
  writable : a.Writable
  calls : ∀ e ∈ a.exprs, e.All Expr.CallFits
  near : ∀ e ∈ a.directions, e.Near

lemma Readable.printable {a : Action} (h : Readable a) {e : Expr} (he : e ∈ a.exprs) :
    Printable e :=
  ⟨h.writable.exprs e he, h.calls e he⟩

/-- The command that an action is written with. -/
def commandOf? : Action → Option Command
  | .spawn _ _ => some .spawn
  | .color _ => some .color
  | .size _ => some .size
  | .drawLine _ _ _ => some .drawLine
  | .drawCircle _ _ _ => some .drawCircle
  | .drawRectangle _ _ _ _ _ => some .drawRectangle
  | .fill => some .fill
  | .goTo _ _ => some .goTo
  | _ => none

/-- **Commands**: behind its word, the tokens of a command are read back. -/
lemma command_takes {a : Action} {c : Command} (hc : commandOf? a = some c) (ha : Readable a)
    (hd : d.Admits a) (h : LineEnd ps qs) :
    ∃ tail, a.pieces = .word c.word :: tail ∧
      (command c).Takes d (tail ++ ps) qs (Restores d a) := by
  have hprintable : ∀ e ∈ a.exprs, Printable e := fun e he => ha.printable he
  have hnear := ha.near
  cases a with
  | spawn x y =>
      obtain rfl := Option.some.inj hc
      simp only [Action.exprs, List.forall_mem_cons] at hprintable
      obtain ⟨hx, hy, -⟩ := hprintable
      refine ⟨_, rfl, ?_⟩
      simpa [Expr.argPieces, command] using spawn_takes hx hy hd h
  | color name =>
      obtain rfl := Option.some.inj hc
      exact ⟨_, rfl, color_takes h⟩
  | size value =>
      obtain rfl := Option.some.inj hc
      refine ⟨_, rfl, ?_⟩
      simpa [Expr.argPieces, command] using size_takes (hprintable value (by simp [Action.exprs])) h
  | drawLine dx dy distance =>
      obtain rfl := Option.some.inj hc
      simp only [Action.exprs, Action.directions, List.forall_mem_cons] at hprintable hnear
      obtain ⟨hx, hy, he, -⟩ := hprintable
      obtain ⟨hx', hy', -⟩ := hnear
      refine ⟨_, rfl, ?_⟩
      simpa [Expr.argPieces, command, drawLine] using
        drawn_takes .drawLine Action.drawLine (fun _ _ _ => rfl) (fun _ _ _ => rfl) hx hy he hx'
          hy' h
  | drawCircle dx dy radius =>
      obtain rfl := Option.some.inj hc
      simp only [Action.exprs, Action.directions, List.forall_mem_cons] at hprintable hnear
      obtain ⟨hx, hy, he, -⟩ := hprintable
      obtain ⟨hx', hy', -⟩ := hnear
      refine ⟨_, rfl, ?_⟩
      simpa [Expr.argPieces, command, drawCircle] using
        drawn_takes .drawCircle Action.drawCircle (fun _ _ _ => rfl) (fun _ _ _ => rfl) hx hy he hx'
          hy' h
  | drawRectangle dx dy distance width height =>
      obtain rfl := Option.some.inj hc
      simp only [Action.exprs, Action.directions, List.forall_mem_cons] at hprintable hnear
      obtain ⟨hx, hy, he, hw, hh, -⟩ := hprintable
      obtain ⟨hx', hy', -⟩ := hnear
      refine ⟨_, rfl, ?_⟩
      simpa [Expr.argPieces, command] using drawRectangle_takes hx hy he hw hh hx' hy' h
  | fill =>
      obtain rfl := Option.some.inj hc
      exact ⟨_, rfl, fill_takes h⟩
  | goTo name condition =>
      obtain rfl := Option.some.inj hc
      have hname := ha.writable.names name (by simp [Action.names])
      have he := hprintable condition (by simp [Action.exprs])
      refine ⟨_, rfl, ?_⟩
      simpa [command] using goTo_takes hname he h
  | assign | label | foreign => cases hc

/-- Once a statement is found, the step adds it. -/
lemma step_of_takes {t : Token} {us : List Token} {r : Reader Action} {a : Action}
    (hr : statementAt t us = some r) (ht : t.kind ≠ .newline)
    (htakes : r.Takes d.flat ps qs (Restores d.flat a)) (hus : us.map Token.piece = ps ++ qs) :
    ∃ (a' : Action) (d' : Draft) (rest : List Token), step d t us = (d'.add ⟨t.position.mark, a'⟩, some rest) ∧
      rest.map Token.piece = qs ∧ Restores d.flat a a' d'.flat := by
  obtain ⟨a', d', rest, hread, hrest, hR⟩ := htakes d rfl us hus
  refine ⟨a', d', rest, ?_, hrest, hR⟩
  rw [step, if_neg ht, hr]
  dsimp only
  rw [hread, conclude]

/-- The step that begins at the tokens adds the action, up to places. -/
def StepFinds (d : Draft) (a : Action) (qs : List Piece) (ts : List Token) : Prop :=
  ∃ t us, ts = t :: us ∧ t.kind ≠ .eof ∧
    ∃ (a' : Action) (d' : Draft) (rest : List Token), step d t us = (d'.add ⟨t.position.mark, a'⟩, some rest) ∧
      rest.map Token.piece = qs ∧ Restores d.flat a a' d'.flat

lemma stepFinds_command {a : Action} {c : Command} (hc : commandOf? a = some c) (ha : Readable a)
    (hd : d.Admits a) (h : LineEnd ps qs) {ts : List Token}
    (hts : ts.map Token.piece = a.pieces ++ (ps ++ qs)) : StepFinds d a qs ts := by
  obtain ⟨tail, hpieces, htakes⟩ := command_takes hc ha hd.flat h
  rw [hpieces, List.cons_append, ← List.append_assoc] at hts
  obtain ⟨t, us, rfl, ht, hus⟩ := List.map_eq_cons_iff.1 hts
  have hkind : t.kind = .command c := (kind_of_piece ht).trans (ofWord_command c)
  have hreader : statementAt t us = some (command c) := by rw [statementAt, hkind]
  exact ⟨t, us, rfl, by simp [hkind], step_of_takes hreader (by simp [hkind]) htakes hus⟩

lemma stepFinds_label {name : String} (hname : IsName name) (hd : d.Admits (.label name))
    (h : LineEnd ps qs) {ts : List Token}
    (hts : ts.map Token.piece = .word name :: (ps ++ qs)) : StepFinds d (.label name) qs ts := by
  obtain ⟨t, us, rfl, ht, hus⟩ := List.map_eq_cons_iff.1 hts
  have hkind : t.kind = .ident := (kind_of_piece ht).trans hname.ofWord_eq
  -- nothing but the end of the line follows the name
  have hreader : statementAt t us = some (label t) := by
    cases h with
    | newline =>
        obtain ⟨u, vs, rfl, hu, -⟩ := List.map_eq_cons_iff.1 hus
        have hnext : u.kind = .newline := kind_of_piece hu
        rw [statementAt, hkind, List.headD_cons, hnext]
    | eof =>
        obtain ⟨u, vs, rfl, hu, -⟩ := List.map_eq_cons_iff.1 hus
        have hnext : u.kind = .eof := kind_of_piece hu
        rw [statementAt, hkind, List.headD_cons, hnext]
  exact ⟨t, us, rfl, by simp [hkind],
    step_of_takes hreader (by simp [hkind]) (label_takes hname ht hd.flat h) hus⟩

lemma stepFinds_assign {name : String} {e : Expr} (hname : IsName name) (he : Printable e)
    (h : LineEnd ps qs) {ts : List Token}
    (hts : ts.map Token.piece = .word name :: ((.arrow :: (e.pieces ++ ps)) ++ qs)) :
    StepFinds d (.assign name e) qs ts := by
  obtain ⟨t, us, rfl, ht, hus⟩ := List.map_eq_cons_iff.1 hts
  have hkind : t.kind = .ident := (kind_of_piece ht).trans hname.ofWord_eq
  have hreader : statementAt t us = some (assign t) := by
    obtain ⟨u, vs, rfl, hu, -⟩ := List.map_eq_cons_iff.1 hus
    have hnext : u.kind = .assign := kind_of_piece hu
    rw [statementAt, hkind, List.headD_cons, hnext]
  exact ⟨t, us, rfl, by simp [hkind],
    step_of_takes hreader (by simp [hkind]) (assign_takes hname ht he h) hus⟩

/-- **A printed statement is read back.** -/
theorem step_found {a : Action} (ha : Readable a) (hd : d.Admits a) (h : LineEnd ps qs)
    {ts : List Token} (hts : ts.map Token.piece = a.pieces ++ (ps ++ qs)) : StepFinds d a qs ts := by
  cases hc : commandOf? a with
  | some c => exact stepFinds_command hc ha hd h hts
  | none =>
      cases a with
      | label name => exact stepFinds_label (ha.writable.names name (by simp [Action.names])) hd h hts
      | assign name e =>
          have hname := ha.writable.names name (by simp [Action.names])
          have he : Printable e := ha.printable (by simp [Action.exprs])
          exact stepFinds_assign hname he h (by simpa [Action.pieces] using hts)
      | foreign form => exact absurd ha.writable.isForm id
      | _ => cases hc

/-! ### Whole programs -/

/-- The draft holds these statements, up to places, and nothing was noted. -/
structure Draft.Holds (d : Draft) (ss : List Stmt) : Prop where
  statements : d.statements.toList.map Stmt.bare = ss.map Stmt.bare
  problems : d.problems = []
  hasSpawn : d.hasSpawn = true ↔ ss ≠ []
  labels : ∀ name, d.labels.contains name = true ↔ name ∈ Program.labelNames ss
  references : ∀ t ∈ d.references, ∃ s ∈ ss, s.action.target? = some t.name

lemma Draft.holds_empty : { Draft.empty with statements := #[] }.Holds [] where
  statements := rfl
  problems := rfl
  hasSpawn := by simp [Draft.empty]
  labels name := by simp [Draft.empty, Table.contains, Table.empty, Table.find?, Program.labelNames]
  references := by simp [Draft.empty]

lemma Draft.holds_flat {ss : List Stmt} : d.flat.Holds ss ↔ d.Holds ss :=
  ⟨fun h => ⟨h.statements, h.problems, h.hasSpawn, h.labels, h.references⟩,
    fun h => ⟨h.statements, h.problems, h.hasSpawn, h.labels, h.references⟩⟩

/-- A reference is an old one, or that of the jump. -/
lemma Draft.Enters.mem_references {d₁ : Draft} {a : Action} (h : d.Enters a d₁) {t : Token}
    (ht : t ∈ d₁.references) : t ∈ d.references ∨ a.target? = some t.name := by
  cases a with
  | goTo name e =>
      obtain ⟨u, hu, rfl⟩ := h
      rcases List.mem_append.1 ht with ht | ht
      · exact .inl ht
      · obtain rfl := List.mem_singleton.1 ht
        exact .inr (congrArg some hu.symm)
  | spawn x y => rw [h.2] at ht; exact .inl ht
  | label name => rw [h.2] at ht; exact .inl ht
  | _ => rw [show d₁ = d from h] at ht; exact .inl ht

/-- A statement that is read back is held with the others. -/
lemma Draft.Holds.add {d₁ : Draft} {pre : List Stmt} {s : Stmt} {a' : Action} (hd : d.Holds pre)
    (hR : Restores d s.action a' d₁) (hspawn : s.action.isSpawn = true ↔ pre = []) (m : Mark) :
    (d₁.add ⟨m, a'⟩).Holds (pre ++ [s]) := by
  obtain ⟨hbare, henters⟩ := hR
  have hdown : d₁.hasSpawn = true := by
    have h := henters.hasSpawn
    by_cases hs : s.action.isSpawn = true
    · rw [if_pos hs] at h
      exact h.2
    · rw [if_neg hs] at h
      rw [h]
      exact hd.hasSpawn.2 fun hpre => hs (hspawn.2 hpre)
  have hadd : d₁.add ⟨m, a'⟩ = { d₁ with statements := d₁.statements.push ⟨m, a'⟩ } := by
    rw [Draft.add, if_pos (by simp [hdown])]
  rw [hadd]
  refine ⟨?_, henters.problems.trans hd.problems, by simp [hdown], fun name => ?_, fun t ht => ?_⟩
  · have hlast : Stmt.bare ⟨m, a'⟩ = s.bare := congrArg (Stmt.mk .none) hbare
    simp [henters.statements, hd.statements, hlast]
  · rw [Program.labelNames_concat]
    exact henters.contains_labels hd.labels name
  · rcases henters.mem_references ht with ht | ht
    · obtain ⟨s', hs', htarget⟩ := hd.references t ht
      exact ⟨s', List.mem_append_left _ hs', htarget⟩
    · exact ⟨s, by simp, ht⟩

/-- In a well-formed program a statement puts the cursor down exactly if it is the first. -/
lemma isSpawn_iff_first {pre ss : List Stmt} {s : Stmt}
    (h : Program.WellFormed (pre ++ s :: ss)) : s.action.isSpawn = true ↔ pre = [] := by
  obtain ⟨first, others, heq, hfirst, hothers⟩ := h.spawn_first
  cases pre with
  | nil =>
      obtain ⟨rfl, -⟩ := List.cons.inj heq
      simp [hfirst]
  | cons p pre =>
      obtain ⟨-, rfl⟩ := List.cons.inj heq
      simp [hothers s (by simp)]

/-- The draft that holds the statements before it admits the next one. -/
lemma Draft.Holds.admits {pre ss : List Stmt} {s : Stmt} (hd : d.Holds pre)
    (h : Program.WellFormed (pre ++ s :: ss)) : d.Admits s.action := by
  have hspawn := isSpawn_iff_first h
  have hlabels := h.labels_distinct
  rw [Program.labelNames_append] at hlabels
  cases ha : s.action with
  | spawn x y =>
      have hpre : pre = [] := hspawn.1 (by simp [ha, Action.isSpawn])
      have hnot : ¬d.hasSpawn = true := fun hs => hd.hasSpawn.1 hs hpre
      exact Bool.eq_false_iff.2 hnot
  | label name =>
      have hmem : name ∈ Program.labelNames (s :: ss) := by
        simp [Program.labelNames, ha, Action.label?]
      have hnew : name ∉ Program.labelNames pre := fun hold =>
        (List.nodup_append.1 hlabels).2.2 name hold name hmem rfl
      exact Bool.eq_false_iff.2 fun hs => hnew ((hd.labels name).1 hs)
  | _ => trivial

/-- **A printed program is read back**, statement by statement. -/
theorem Draft.Holds.readAll {pre ss : List Stmt} (hd : d.Holds pre)
    (hwf : Program.WellFormed (pre ++ ss)) (hr : ∀ s ∈ ss, Readable s.action) {ts : List Token}
    (hts : ts.map Token.piece = [.newline].intercalate (ss.map (·.action.pieces)) ++ [.eof]) :
    ∃ d' rest, Grammar.readAll d ts = (d', some rest) ∧ d'.Holds (pre ++ ss) := by
  induction ss generalizing pre d ts with
  | nil =>
      obtain ⟨t, us, rfl, ht, hus⟩ := List.map_eq_cons_iff.1 hts
      have hkind : t.kind = .eof := kind_of_piece ht
      rw [Grammar.readAll, if_pos hkind, List.append_nil]
      exact ⟨d, t :: us, rfl, hd⟩
  | cons s ss ih =>
      obtain ⟨hs, hss⟩ := List.forall_mem_cons.1 hr
      -- the line ends at a line end if statements follow, else at the closing mark
      obtain ⟨ps, hend, hrow⟩ : ∃ ps,
          LineEnd ps ([.newline].intercalate (ss.map (·.action.pieces)) ++ [.eof]) ∧
          [.newline].intercalate ((s :: ss).map (·.action.pieces)) ++ [.eof] = s.action.pieces ++
            (ps ++ ([.newline].intercalate (ss.map (·.action.pieces)) ++ [.eof])) := by
        cases ss with
        | nil => exact ⟨[], .eof [], by simp⟩
        | cons s' ss => exact ⟨[.newline], .newline _, by simp [List.intercalate_cons_cons]⟩
      rw [hrow] at hts
      obtain ⟨t, us, rfl, hkind, a', d₁, rest, hstep, hrest, hR⟩ :=
        step_found hs (hd.admits hwf) hend hts
      have hflat := (Draft.holds_flat.2 hd).add hR (isSpawn_iff_first hwf) t.position.mark
      rw [← Draft.flat_add] at hflat
      have hd' := Draft.holds_flat.1 hflat
      rw [List.append_cons] at hwf ⊢
      obtain ⟨d', rest', hread, hholds⟩ := ih hd' hwf hss hrest
      refine ⟨d', rest', ?_, hholds⟩
      rw [Grammar.readAll, if_neg hkind]
      split
      · next d₂ rest₂ heq =>
        rw [hstep] at heq
        obtain ⟨rfl, hsome⟩ := Prod.mk.inj heq
        obtain rfl := Option.some.inj hsome
        exact hread
      · next d₂ heq => simp [hstep] at heq

/-- The end of the reading finds nothing to note either. -/
lemma Draft.Holds.finish {ss : List Stmt} (hd : d.Holds ss) (hwf : Program.WellFormed ss) :
    d.finish.problems = [] := by
  have hspawn : d.hasSpawn = true := by
    obtain ⟨s, rest, rfl, -⟩ := hwf.spawn_first
    exact hd.hasSpawn.2 (by simp)
  have hknown : d.references.filter (fun t => !d.labels.contains t.name) = [] := by
    refine List.filter_eq_nil_iff.2 fun t ht => ?_
    obtain ⟨s, hs, htarget⟩ := hd.references t ht
    have hlabel := (hd.labels t.name).2 (hwf.targets_declared s hs t.name htarget)
    simp [hlabel]
  simp [Draft.finish, hspawn, hknown, hd.problems]

end Grammar

/-! ### Print and read -/

open Grammar

/-- **Print and read**: a well-formed program whose names and expressions have a text is printed, one
statement on each line, as a text that is scanned and read without errors, and what is read is the
program, up to places. -/
theorem print_reads {ss : List Stmt} (hwf : Program.WellFormed ss)
    (hw : ∀ s ∈ ss, s.action.Writable) :
    ∃ program, Reads (print ss) program ∧
      program.statements.toList.map Stmt.bare = ss.map Stmt.bare := by
  obtain ⟨scan, hscan, herrors, htokens⟩ := scan?_print hw hwf.calls_fit
  have hreadable : ∀ s ∈ ss, Readable s.action := fun s hs =>
    ⟨hw s hs, hwf.calls_fit s hs, hwf.directions_near s hs⟩
  have hclosed : scan.closed.map Token.piece =
      [.newline].intercalate (ss.map (·.action.pieces)) ++ [.eof] := by
    rw [Scan.closed, List.map_append, htokens]
    rfl
  obtain ⟨d, rest, hread, hholds⟩ := Draft.holds_empty.readAll hwf hreadable hclosed
  rw [List.nil_append] at hholds
  have hparse : Parse.ofTokens scan.closed = ⟨d.finish, some rest⟩ := by
    rw [Parse.ofTokens, Parse.resume, hread]
  refine ⟨_, ⟨scan, hscan, herrors, ?_, rfl⟩, ?_⟩
  · rw [hparse, Parse.errors, hholds.finish hwf]
    rfl
  · rw [hparse]
    exact hholds.statements

/-- `1 + - x ** 2`, in parentheses. -/
def exampleSum : Expr :=
  .group .none (.binary .none (.lit .none (.int 1)) "+" (.binary .none
    (.binary .none (.lit .none (.int 0)) "-" (.var .none "x")) "**" (.lit .none (.int 2))))

/-- A program with a negated name, a sum in parentheses, a call, and texts with quotes, backslashes
and a line end. -/
def exampleStatements : List Stmt :=
  [⟨.none, .spawn (.lit .none (.int 2147483647))
      (.binary .none (.lit .none (.int 0)) "-" (.var .none "n_1"))⟩,
    ⟨.none, .color "a \"b\" \\"⟩,
    ⟨.none, .label "loop"⟩,
    ⟨.none, .goTo "loop" (.binary .none (.call .none "IsBrushColor" [.lit .none (.text "\n\\")])
      "==" exampleSum)⟩]

lemma exampleSum_graded : exampleSum.Graded .primary := by
  have hone : (Expr.lit .none (.int 1)).Graded .primary := .number (by decide) (by decide)
  have htwo : (Expr.lit .none (.int 2)).Graded .primary := .number (by decide) (by decide)
  have hx : (Expr.var .none "x").Graded .primary := .var (by decide)
  refine .group (.operand (.operand (.operand (.operand (.chain .add ?_ ?_)))))
  · exact hone.primary.climb .term
  · exact .chain .pow (.operand (.minus hx.primary)) htwo.primary

lemma exampleStatements_writable : ∀ s ∈ exampleStatements, s.action.Writable := by
  have hnumber : (Expr.lit .none (.int 2147483647)).Graded .primary :=
    .number (by decide) (by decide)
  have hname : (Expr.var .none "n_1").Graded .primary := .var (by decide)
  have hcall : (Expr.call .none "IsBrushColor" [.lit .none (.text "\n\\")]).Graded .primary := by
    refine .call (List.forall_mem_singleton.2 ?_)
    exact (Expr.Graded.text _).primary.climb .or
  have hcondition := Expr.Graded.chain (m := .none) .equal (hcall.primary.climb .equality)
    (exampleSum_graded.primary.climb .comparison)
  simp only [exampleStatements, List.forall_mem_cons]
  refine ⟨⟨trivial, by simp [Action.names], ?_⟩, ⟨trivial, by simp [Action.names],
    by simp [Action.exprs]⟩, ⟨trivial, ?_, by simp [Action.exprs]⟩, ⟨trivial, ?_, ?_⟩,
    List.forall_mem_nil _⟩
  · simp only [Action.exprs, List.forall_mem_cons]
    exact ⟨hnumber.primary.climb .or, (Expr.Graded.minus hname.primary).climb .or,
      List.forall_mem_nil _⟩
  · exact List.forall_mem_singleton.2 (by decide)
  · exact List.forall_mem_singleton.2 (by decide)
  · exact List.forall_mem_singleton.2 (.operand (.operand hcondition))

theorem print_reads_exampleStatements :
    Program.WellFormed exampleStatements ∧ (∀ s ∈ exampleStatements, s.action.Writable) ∧
      ∃ program, Reads (print exampleStatements) program ∧
        program.statements.toList.map Stmt.bare = exampleStatements.map Stmt.bare := by
  have hwf : Program.WellFormed exampleStatements := by
    refine ⟨⟨_, _, rfl, rfl, by decide⟩, by decide, ?_, ?_, ?_⟩
    · simp [exampleStatements, Action.target?, Program.labelNames, Action.label?]
    · have hfits : ∃ b, Builtin.ofWord? "IsBrushColor" = some b ∧ 1 = b.arity :=
        ⟨.isBrushColor, by decide, rfl⟩
      simp [exampleStatements, Action.exprs, exampleSum, Expr.CallFits, hfits]
    · simp [exampleStatements, Action.directions]
  exact ⟨hwf, exampleStatements_writable, print_reads hwf exampleStatements_writable⟩

end Brushwork
