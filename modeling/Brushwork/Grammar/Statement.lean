import Brushwork.Grammar.Reader

/-!
Reading statements.

A statement fills a line. After tokens that do not fit, reading goes on behind the next line end or
at the next token that can begin a statement, whichever comes first.

* `Reader.Inner` and `Reader.Line`: how the readers of statements are put together. What is true of
  the readers they are made of, and stays true when one is read after the other, is true of all of
  them by induction.
* `Reader.command_line`, `Reader.label_line` and `Reader.assign_line`: every statement is read so.
* `resume_length`: after a refusal no token is read twice.
* `step_length`: every step takes a token at least.
-/

namespace Brushwork.Grammar

namespace Reader

/-! ### The parts of an argument list -/

/-- The parenthesis that opens the arguments of a command. -/
def openArguments (c : Command) : Reader Token := expect .openParen (.openParen c.word)

/-- The comma between two arguments of a command. -/
def nextArgument (c : Command) : Reader Token := expect .comma (.comma c)

/-- The parenthesis that closes the arguments of a command that takes `count` of them. -/
def closeArguments (c : Command) (count : Nat) : Reader Token := do
  refuseIf .comma (.surplusArgument c count)
  expect .closeParen (.closeParen (c.word ++ " arguments"))

/-- A further argument of a command, behind its comma. -/
def furtherArgument (c : Command) : Reader Expr := do
  let _ ← nextArgument c
  expr

/-- The first two arguments of a drawing command: the directions along both axes. -/
def directions (c : Command) : Reader (Expr × Expr) := do
  let _ ← openArguments c
  let dx ← direction .x
  let _ ← nextArgument c
  let dy ← direction .y
  return (dx, dy)

/-- The only argument of a command, or its first one. -/
def firstArgument (c : Command) : Reader Expr := do
  let _ ← openArguments c
  expr

/-- The end of a command that takes `count` arguments: its last parenthesis and its line. -/
def endCommand (c : Command) (count : Nat) : Reader Unit := do
  let _ ← closeArguments c count
  lineEnd c.word

/-! ### The statements, each behind its first token -/

/-- Begins the statement that puts the cursor down, of which there is only one. -/
def beginSpawn : Reader Unit := fun d ts =>
  if d.hasSpawn then refuse .secondSpawn d ts else ({ d with hasSpawn := true }, .found () ts)

/-- `Spawn(x, y)`. -/
def spawn : Reader Action := do
  beginSpawn
  let x ← firstArgument .spawn
  let y ← furtherArgument .spawn
  endCommand .spawn 2
  return .spawn x y

/-- `Color(name)`, with the name in quotes or bare. -/
def color : Reader Action := do
  let _ ← openArguments .color
  let name ← expectEither .string .ident .colorName
  let _ ← expect .closeParen (.closeParen "Color argument")
  lineEnd Command.color.word
  return .color name.name

/-- `Size(value)`. -/
def size : Reader Action := do
  let value ← firstArgument .size
  endCommand .size 1
  return .size value

/-- `DrawLine(dirX, dirY, distance)`. -/
def drawLine : Reader Action := do
  let dir ← directions .drawLine
  let distance ← furtherArgument .drawLine
  endCommand .drawLine 3
  return .drawLine dir.1 dir.2 distance

/-- `DrawCircle(dirX, dirY, radius)`. -/
def drawCircle : Reader Action := do
  let dir ← directions .drawCircle
  let radius ← furtherArgument .drawCircle
  endCommand .drawCircle 3
  return .drawCircle dir.1 dir.2 radius

/-- `DrawRectangle(dirX, dirY, distance, width, height)`. -/
def drawRectangle : Reader Action := do
  let dir ← directions .drawRectangle
  let distance ← furtherArgument .drawRectangle
  let width ← furtherArgument .drawRectangle
  let height ← furtherArgument .drawRectangle
  endCommand .drawRectangle 5
  return .drawRectangle dir.1 dir.2 distance width height

/-- `Fill()`. -/
def fill : Reader Action := do
  let _ ← openArguments .fill
  endCommand .fill 0
  return .fill

/-- The label of a jump, in its brackets. -/
def target : Reader Token := do
  let _ ← expect .openBracket .openBracket
  let label ← expect .ident .goToLabel
  let _ ← expect .closeBracket .closeBracket
  update fun d => { d with references := d.references ++ [label] }
  return label

/-- The condition of a jump, in its parentheses. -/
def condition : Reader Expr := do
  let _ ← expect .openParen (.openParen "GoTo label")
  let e ← expr
  let _ ← expect .closeParen (.closeParen "GoTo condition")
  return e

/-- `GoTo [label] (condition)`. -/
def goTo : Reader Action := do
  let label ← target
  let e ← condition
  lineEnd Command.goTo.word
  return .goTo label.name e

/-- A name alone on its line: a label. -/
def label (name : Token) : Reader Action := do
  update (·.declare name)
  lineEnd "label"
  return .label name.name

/-- `name <- value`. -/
def assign (name : Token) : Reader Action := do
  let _ ← expect .assign .assignSign
  let value ← expr
  lineEnd "<-"
  return .assign name.name value

/-- The statement of a command, behind its word. -/
def command : Command → Reader Action
  | .spawn => spawn
  | .color => color
  | .size => size
  | .drawLine => drawLine
  | .drawCircle => drawCircle
  | .drawRectangle => drawRectangle
  | .fill => fill
  | .goTo => goTo

/-! ### How statements are read -/

/-- The kind is that of a token within a line: neither the closing mark nor a line end. -/
class Plain (kind : Kind) : Prop where
  ne : kind ≠ .eof
  ne_newline : kind ≠ .newline

instance : Plain .openParen := ⟨by simp, by simp⟩

instance : Plain .closeParen := ⟨by simp, by simp⟩

instance : Plain .openBracket := ⟨by simp, by simp⟩

instance : Plain .closeBracket := ⟨by simp, by simp⟩

instance : Plain .comma := ⟨by simp, by simp⟩

instance : Plain .assign := ⟨by simp, by simp⟩

instance : Plain .ident := ⟨by simp, by simp⟩

instance : Plain .string := ⟨by simp, by simp⟩

/-- A reader that stays within its line: it takes tokens and expressions one after the other, and
declares no labels but those of tokens in `D`. -/
inductive Inner (D : Token → Prop) : {α : Type} → Reader α → Prop
  | pure {α : Type} (v : α) : Inner D (Pure.pure v : Reader α)
  | bind {α β : Type} {r : Reader α} {f : α → Reader β} (hr : Inner D r) (hf : ∀ v, Inner D (f v)) :
      Inner D (r >>= f)
  | refuseIf {kind : Kind} {cause : Problem.Cause} [Plain kind] (hcause : cause.isOfLabel = false) :
      Inner D (refuseIf kind cause)
  | expect {kind : Kind} {cause : Problem.Cause} [Plain kind] (hcause : cause.isOfLabel = false) :
      Inner D (expect kind cause)
  | expectEither {k₁ k₂ : Kind} {cause : Problem.Cause} [Plain k₁] [Plain k₂]
      (hcause : cause.isOfLabel = false) : Inner D (expectEither k₁ k₂ cause)
  | expr : Inner D expr
  | direction (axis : Axis) : Inner D (direction axis)
  | beginSpawn : Inner D beginSpawn
  | target : Inner D target
  | declare {t : Token} (ht : D t) : Inner D (update (·.declare t))

/-- A reader of a whole line: what stays within the line comes first, and then the end of the line.
What was found may be made into something else behind it. -/
inductive Line (D : Token → Prop) : {α : Type} → Reader α → Prop
  | lineEnd (after : String) : Line D (lineEnd after)
  | bind {α β : Type} {r : Reader α} {f : α → Reader β} (hr : Inner D r) (hf : ∀ v, Line D (f v)) :
      Line D (r >>= f)
  | map {α β : Type} {r : Reader α} (hr : Line D r) (g : α → β) :
      Line D (r >>= fun v => Pure.pure (g v))

section

variable {D : Token → Prop}

theorem openArguments_inner (c : Command) : Inner D (openArguments c) := .expect rfl

theorem nextArgument_inner (c : Command) : Inner D (nextArgument c) := .expect rfl

theorem closeArguments_inner (c : Command) (count : Nat) : Inner D (closeArguments c count) :=
  .bind (.refuseIf rfl) fun _ => .expect rfl

theorem firstArgument_inner (c : Command) : Inner D (firstArgument c) :=
  .bind (openArguments_inner c) fun _ => .expr

theorem furtherArgument_inner (c : Command) : Inner D (furtherArgument c) :=
  .bind (nextArgument_inner c) fun _ => .expr

theorem directions_inner (c : Command) : Inner D (directions c) :=
  .bind (openArguments_inner c) fun _ => .bind (.direction .x) fun _ =>
    .bind (nextArgument_inner c) fun _ => .bind (.direction .y) fun _ => .pure _

theorem condition_inner : Inner D condition :=
  .bind (.expect rfl) fun _ => .bind .expr fun _ => .bind (.expect rfl) fun _ => .pure _

theorem endCommand_line (c : Command) (count : Nat) : Line D (endCommand c count) :=
  .bind (closeArguments_inner c count) fun _ => .lineEnd _

/-- Every command fills its line, and declares no label. -/
theorem command_line : (c : Command) → Line D (command c)
  | .spawn => .bind .beginSpawn fun _ => .bind (firstArgument_inner _) fun _ =>
      .bind (furtherArgument_inner _) fun _ => .map (endCommand_line ..) _
  | .color => .bind (openArguments_inner _) fun _ => .bind (.expectEither rfl) fun _ =>
      .bind (.expect rfl) fun _ => .map (.lineEnd _) _
  | .size => .bind (firstArgument_inner _) fun _ => .map (endCommand_line ..) _
  | .drawLine => .bind (directions_inner _) fun _ => .bind (furtherArgument_inner _) fun _ =>
      .map (endCommand_line ..) _
  | .drawCircle => .bind (directions_inner _) fun _ => .bind (furtherArgument_inner _) fun _ =>
      .map (endCommand_line ..) _
  | .drawRectangle => .bind (directions_inner _) fun _ => .bind (furtherArgument_inner _) fun _ =>
      .bind (furtherArgument_inner _) fun _ => .bind (furtherArgument_inner _) fun _ =>
        .map (endCommand_line ..) _
  | .fill => .bind (openArguments_inner _) fun _ => .map (endCommand_line ..) _
  | .goTo => .bind .target fun _ => .bind condition_inner fun _ => .map (.lineEnd _) _

theorem label_line {t : Token} (ht : D t) : Line D (label t) :=
  .bind (.declare ht) fun _ => .map (.lineEnd _) _

theorem assign_line (t : Token) : Line D (assign t) :=
  .bind (.expect rfl) fun _ => .bind .expr fun _ => .map (.lineEnd _) _

theorem shrinks_beginSpawn : Shrinks beginSpawn := by
  intro d ts
  rw [beginSpawn]
  split
  · exact shrinks_refuse .secondSpawn d ts
  · exact Nat.le_refl _

theorem shrinks_target : Shrinks target :=
  (shrinks_expect _ _).bind fun _ => (shrinks_expect _ _).bind fun _ =>
    (shrinks_expect _ _).bind fun _ _ _ => Nat.le_refl _

theorem Inner.shrinks {α : Type} {r : Reader α} (h : Inner D r) : Shrinks r := by
  induction h with
  | pure v => exact fun _ _ => Nat.le_refl _
  | bind _ _ ihr ihf => exact ihr.bind ihf
  | refuseIf => exact shrinks_refuseIf _ _
  | expect => exact shrinks_expect _ _
  | expectEither => exact shrinks_expectEither _ _ _
  | expr => exact shrinks_expr
  | direction axis => exact shrinks_direction axis
  | beginSpawn => exact shrinks_beginSpawn
  | target => exact shrinks_target
  | declare => exact fun _ _ => Nat.le_refl _

theorem Line.shrinks {α : Type} {r : Reader α} (h : Line D r) : Shrinks r := by
  induction h with
  | lineEnd after => exact shrinks_lineEnd after
  | bind hr _ ihf => exact hr.shrinks.bind ihf
  | map _ g ihr => exact ihr.bind fun _ _ _ => Nat.le_refl _

end

end Reader

/-! ### One step -/

/-- Where reading goes on once the token `t` has been passed over and `ts` follows. -/
def resumeAfter (t : Token) : List Token → Option (List Token)
  | [] => none
  | u :: us =>
    if u.kind = .eof ∨ t.kind = .newline ∨ u.kind.startsStatement then some (u :: us)
    else resumeAfter u us

/-- Where reading goes on after a refusal before `ts`: the first token is passed over, unless it is
the closing mark. -/
def resume : List Token → Option (List Token)
  | [] => none
  | t :: us => if t.kind = .eof then some (t :: us) else resumeAfter t us

/-- The statement that begins with `t`, before `us`. A name is a label if its line ends behind it,
and is assigned to if the arrow follows. -/
def statementAt (t : Token) (us : List Token) : Option (Reader Action) :=
  match t.kind with
  | .command c => some (Reader.command c)
  | .ident =>
    match (us.headD t).kind with
    | .newline | .eof => some (Reader.label t)
    | .assign => some (Reader.assign t)
    | _ => none
  | _ => none

/-- Draws up the end of a statement that began with `t`: what was found is added, a refusal is noted
and passed over. -/
def conclude (t : Token) : Draft × Answer Action → Draft × Option (List Token)
  | (d, .found action rest) => (d.add ⟨t.position.mark, action⟩, some rest)
  | (d, .refused p rest) => (d.note p, resume rest)
  | (d, .cut) => (d, none)

/-- Reads what begins with the token `t`: an empty line, a statement, or something to pass over. -/
def step (d : Draft) (t : Token) (us : List Token) : Draft × Option (List Token) :=
  if t.kind = .newline then (d, some us)
  else
    match statementAt t us with
    | some reader => conclude t (reader d us)
    | none => (d.note (.near t .notAStatement), resumeAfter t us)

theorem resumeAfter_length {t : Token} {ts rest : List Token} (h : resumeAfter t ts = some rest) :
    rest.length ≤ ts.length := by
  induction ts generalizing t with
  | nil => simp [resumeAfter] at h
  | cons u us ih =>
    rw [resumeAfter] at h
    split at h
    · obtain rfl := Option.some.inj h
      exact Nat.le_refl _
    · exact Nat.le_succ_of_le (ih h)

theorem resume_length {ts rest : List Token} (h : resume ts = some rest) :
    rest.length ≤ ts.length := by
  cases ts with
  | nil => simp [resume] at h
  | cons t us =>
    rw [resume] at h
    split at h
    · obtain rfl := Option.some.inj h
      exact Nat.le_refl _
    · exact Nat.le_succ_of_le (resumeAfter_length h)

/-- What can begin a statement: a command, a label or an assignment. -/
theorem statementAt_cases {t : Token} {us : List Token} {r : Reader Action}
    (h : statementAt t us = some r) :
    (∃ c, t.kind = .command c ∧ r = Reader.command c) ∨
    (t.kind = .ident ∧ (r = Reader.label t ∨ r = Reader.assign t)) := by
  rw [statementAt] at h
  split at h
  · next c hc => exact .inl ⟨c, hc, (Option.some.inj h).symm⟩
  · next hi =>
    refine .inr ⟨hi, ?_⟩
    split at h
    · exact .inl (Option.some.inj h).symm
    · exact .inl (Option.some.inj h).symm
    · exact .inr (Option.some.inj h).symm
    · simp at h
  · simp at h

/-- **Every statement fills its line**, and declares no label but that of its first token. -/
theorem statementAt_line {t : Token} {us : List Token} {r : Reader Action}
    (h : statementAt t us = some r) : r.Line (· = t) := by
  obtain ⟨c, -, rfl⟩ | ⟨-, rfl | rfl⟩ := statementAt_cases h
  · exact Reader.command_line c
  · exact Reader.label_line rfl
  · exact Reader.assign_line t

theorem conclude_length {t : Token} {n : Nat} {out : Draft × Answer Action} (hw : out.2.Within n)
    {d : Draft} {rest : List Token} (h : conclude t out = (d, some rest)) : rest.length ≤ n := by
  obtain ⟨d', a⟩ := out
  cases a with
  | found action r =>
    obtain ⟨-, hr⟩ := Prod.mk.inj h
    obtain rfl := Option.some.inj hr
    exact hw
  | refused p r =>
    obtain ⟨-, hr⟩ := Prod.mk.inj h
    exact Nat.le_trans (resume_length hr) hw
  | cut => simp [conclude] at h

theorem step_length {d d' : Draft} {t : Token} {us rest : List Token}
    (h : step d t us = (d', some rest)) : rest.length ≤ us.length := by
  rw [step] at h
  split at h
  · obtain ⟨-, hr⟩ := Prod.mk.inj h
    obtain rfl := Option.some.inj hr
    exact Nat.le_refl _
  · split at h
    · next r hs => exact conclude_length ((statementAt_line hs).shrinks d us) h
    · obtain ⟨-, hr⟩ := Prod.mk.inj h
      exact resumeAfter_length hr

end Brushwork.Grammar
