import Brushwork.Proofs.Grammar.Closing

/-!
How deep reading goes.

* `whole_depth_le`: an expression is read with no more than 15 calls inside one another for each token,
  and 14 more.
* `whole_depth_open`: each parenthesis that opens takes these 15, whatever follows it.
* `Reader.Tracks`: what a reader adds to the depth of a draft. `Reader.Line.tracks`: so do the readers of
  statements.
* `ofTokens_depth_le` and `le_ofTokens_depth`: the same two bounds for the reading of a program.
-/

namespace Brushwork.Grammar

variable {α β : Type} {n : Nat} {t : Token} {ts us : List Token}

/-! ### Readings -/

namespace Bounded

variable {r : Bounded α n} {f : α → (ts : List Token) → ts.length ≤ n → Bounded β n} {k : Nat}

@[simp] lemma depth_nested (k : Nat) (r : Bounded α n) : (r.nested k).depth = k + r.depth := rfl

lemma depth_le_bind : r.depth ≤ (r.bind f).depth := by
  obtain ⟨⟨ps, a⟩, h, depth⟩ := r
  cases a with
  | found v rest => exact Nat.le_max_left _ _
  | refused p rest => exact Nat.le_refl _
  | cut => exact Nat.le_refl _

/-- Two readings, one after the other, stay as flat as both of them. -/
lemma bind_depth_le (hr : r.depth ≤ k) (hf : ∀ v rest h, (f v rest h).depth ≤ k) :
    (r.bind f).depth ≤ k := by
  obtain ⟨⟨ps, a⟩, h, depth⟩ := r
  cases a with
  | found v rest => exact Nat.max_le.2 ⟨hr, hf v rest h⟩
  | refused p rest => exact hr
  | cut => exact hr

lemma expect_depth (kind : Kind) (cause : Problem.Cause) (ts : List Token) :
    (expect kind cause ts).depth = 0 := by
  cases ts with
  | nil => rfl
  | cons t us =>
      rw [expect]
      split <;> rfl

end Bounded

lemma closeCall_depth (name : Token) (args : List Expr) (ts : List Token) :
    (closeCall name args ts).depth = 0 := by
  have hexpect := Bounded.expect_depth .closeParen (.closeParen "function arguments") ts
  exact Nat.le_zero.1 (Bounded.bind_depth_le (Nat.le_of_eq hexpect) fun _ _ _ => Nat.le_refl _)

/-! ### Expressions -/

lemma primary_depth_literal (ht : isLiteral t.kind = true) :
    (primary (t :: us)).depth ≤ 15 * (t :: us).length := by
  rw [primary_of_isLiteral ht]
  show 1 + 0 ≤ 15 * (us.length + 1)
  omega

lemma primary_depth_named (ht : isName t.kind = true) (hn : (named t us).depth ≤ 15 * us.length) :
    (primary (t :: us)).depth ≤ 15 * (t :: us).length := by
  rw [primary_of_isName ht]
  show 1 + (named t us).depth ≤ 15 * (us.length + 1)
  omega

lemma primary_of_open (ht : t.kind = .openParen) (us : List Token) :
    primary (t :: us) =
      ((((level .or us).nested 1).bind fun e rest h =>
        ((Bounded.expect .closeParen (.closeParen "expression") rest).weaken h).bind
          fun _ rest' h' => .found (.group t.position.mark e) rest' h').weaken
            (Nat.le_succ _)).nested 1 := by
  rw [primary, ht]

lemma primary_depth_open (ht : t.kind = .openParen)
    (he : (level .or us).depth ≤ 15 * us.length + 13) :
    (primary (t :: us)).depth ≤ 15 * (t :: us).length := by
  rw [primary_of_open ht, Bounded.depth_nested]
  have hinner : ((level .or us).nested 1).depth ≤ 15 * us.length + 14 := by
    rw [Bounded.depth_nested]
    omega
  have hbind := Bounded.bind_depth_le hinner fun e rest h =>
    Bounded.bind_depth_le (f := fun _ rest' h' => .found (Expr.group t.position.mark e) rest' h')
      (r := (Bounded.expect .closeParen (.closeParen "expression") rest).weaken h)
      (Nat.le_trans (Nat.le_of_eq (Bounded.expect_depth _ _ rest)) (Nat.zero_le _))
      fun _ _ _ => Nat.zero_le _
  show 1 + (((level .or us).nested 1).bind _).depth ≤ 15 * (us.length + 1)
  omega

/-- **Expressions** take no more than 15 calls for each token, and 14 more. -/
theorem whole_depth_le (ts : List Token) : (whole ts).depth ≤ 15 * ts.length + 14 := by
  -- a level that binds tighter has two calls less below it
  have hlevel : (level .or ts).depth + 2 * Level.or.rank ≤ 15 * ts.length + 13 := by
    refine (level.mutual_induct
      (fun l ts => (level l ts).depth + 2 * l.rank ≤ 15 * ts.length + 13)
      (fun l left ts => (chain l left ts).depth ≤ 15 * ts.length)
      (fun l ts => (operand l ts).depth + 2 * l.rank ≤ 15 * ts.length + 11)
      (fun ts => (unary ts).depth ≤ 15 * ts.length + 1)
      (fun ts => (primary ts).depth ≤ 15 * ts.length)
      (fun t ts => (named t ts).depth ≤ 15 * ts.length)
      (fun t ts => (callOf t ts).depth ≤ 15 * ts.length + 15)
      (fun ts => (arguments ts).depth ≤ 15 * ts.length + 14)
      ?level ?chainNil ?chain ?chainEnd ?tighter ?tightest ?unaryNil ?minus ?unary ?primaryNil
      ?ident ?builtin ?truth ?number ?string ?group ?refused ?namedNil ?named ?var ?callNil
      ?callEmpty ?call ?arguments).1 .or ts
    case level =>
      intro l ts ho hc
      have hrank := l.rank_le
      have hbind : ((operand l ts).bind fun e rest h => (chain l e rest).weaken h).depth ≤
          15 * ts.length + 11 - 2 * l.rank := by
        refine Bounded.bind_depth_le (by omega) fun e rest h => ?_
        have hchain := hc e rest h
        show (chain l e rest).depth ≤ _
        omega
      rw [level, Bounded.depth_nested]
      omega
    case chainNil =>
      intro l left
      rw [chain]
      exact Nat.zero_le _
    case chain =>
      intro l left t us ht ho hc
      rw [chain, if_pos ht]
      show ((operand l us).bind _).depth ≤ 15 * (us.length + 1)
      refine Bounded.bind_depth_le (by omega) fun right rest h => ?_
      have hchain := hc right rest h
      show (chain l _ rest).depth ≤ _
      omega
    case chainEnd =>
      intro l left t us ht
      rw [chain, if_neg ht]
      exact Nat.zero_le _
    case tighter =>
      intro l ts m h hm
      have hrank := Level.rank_tighter h
      rw [(operand_of_tighter h ts).2]
      omega
    case tightest =>
      intro l ts h hu
      have hrank := l.rank_le
      rw [(operand_of_tightest h ts).2]
      omega
    case unaryNil =>
      rw [unary]
      exact Nat.zero_le _
    case minus =>
      intro t us ht hu
      rw [unary, if_pos ht, Bounded.depth_nested]
      have hbind : ((unary us).bind fun e rest h =>
          Bounded.found (Expr.negated t.position.mark e) rest h).depth ≤ 15 * us.length + 1 :=
        Bounded.bind_depth_le hu fun _ _ _ => Nat.zero_le _
      show 1 + ((unary us).bind _).depth ≤ 15 * (us.length + 1) + 1
      omega
    case unary =>
      intro t us ht hp
      rw [unary, if_neg ht, Bounded.depth_nested]
      omega
    case primaryNil =>
      rw [primary]
      exact Nat.zero_le _
    case ident => exact fun t us ht hn => primary_depth_named (by rw [ht]; rfl) hn
    case builtin => exact fun t us b ht hn => primary_depth_named (by rw [ht]; rfl) hn
    case truth => exact fun t us b ht => primary_depth_literal (by rw [ht]; rfl)
    case number => exact fun t us ht => primary_depth_literal (by rw [ht]; rfl)
    case string => exact fun t us ht => primary_depth_literal (by rw [ht]; rfl)
    case group =>
      intro t us ht he
      exact primary_depth_open ht he
    case refused =>
      intro t us hident hbuiltin htruth hnumber hstring hopen
      rw [primary_of_other hident hbuiltin htruth hnumber hstring hopen]
      show 1 + 0 ≤ 15 * (us.length + 1)
      omega
    case namedNil =>
      intro t
      rw [named]
      exact Nat.zero_le _
    case named =>
      intro t u us hu hc
      rw [named, if_pos hu]
      exact hc
    case var =>
      intro t u us hu
      rw [named, if_neg hu]
      exact Nat.zero_le _
    case callNil =>
      intro t
      rw [callOf]
      exact Nat.zero_le _
    case callEmpty =>
      intro t u us hu
      rw [callOf, if_pos hu, Bounded.depth_nested, closeCall_depth]
      omega
    case call =>
      intro t u us hu ha
      rw [callOf, if_neg hu, Bounded.depth_nested]
      have hbind : ((arguments (u :: us)).bind fun args rest h =>
          (closeCall t args rest).weaken h).depth ≤ 15 * (u :: us).length + 14 := by
        refine Bounded.bind_depth_le ha fun args rest h => ?_
        show (closeCall t args rest).depth ≤ _
        rw [closeCall_depth]
        exact Nat.zero_le _
      omega
    case arguments =>
      intro ts he ha
      rw [arguments]
      refine Bounded.bind_depth_le ?_ fun e rest h => ?_
      · rw [Bounded.depth_nested]
        have hzero : Level.or.rank = 0 := rfl
        omega
      · cases rest with
        | nil => exact Nat.zero_le _
        | cons t us =>
            dsimp only
            split
            · have hrest := ha [] t us h
              rw [List.length_cons] at h
              show ((arguments us).bind _).depth ≤ _
              exact Bounded.bind_depth_le (by omega) fun _ _ _ => Nat.zero_le _
            · exact Nat.zero_le _
  show 1 + (level .or ts).depth ≤ _
  omega

lemma operand_le_level (l : Level) (ts : List Token) :
    2 + (operand l ts).depth ≤ (level l ts).depth := by
  rw [level, Bounded.depth_nested]
  exact Nat.add_le_add_left Bounded.depth_le_bind 2

lemma level_le_level {l m : Level} (h : l.tighter = some m) (ts : List Token) :
    2 + (level m ts).depth ≤ (level l ts).depth := by
  rw [← (operand_of_tighter h ts).2]
  exact operand_le_level l ts

/-- There are six levels over an operand, with two calls each. -/
lemma unary_le_level (ts : List Token) : 12 + (unary ts).depth ≤ (level .or ts).depth := by
  have hunary : 2 + (unary ts).depth ≤ (level .factor ts).depth := by
    rw [← (operand_of_tightest (l := .factor) rfl ts).2]
    exact operand_le_level .factor ts
  calc 12 + (unary ts).depth ≤ 10 + (level .factor ts).depth := by omega
    _ ≤ 8 + (level .term ts).depth := by
      have := level_le_level (l := .term) rfl ts
      omega
    _ ≤ 6 + (level .comparison ts).depth := by
      have := level_le_level (l := .comparison) rfl ts
      omega
    _ ≤ 4 + (level .equality ts).depth := by
      have := level_le_level (l := .equality) rfl ts
      omega
    _ ≤ 2 + (level .and ts).depth := by
      have := level_le_level (l := .and) rfl ts
      omega
    _ ≤ (level .or ts).depth := level_le_level rfl ts

/-- **A parenthesis that opens** takes 15 calls, whatever follows it. -/
theorem whole_depth_open (ht : t.kind = .openParen) (us : List Token) :
    15 + (whole us).depth ≤ (whole (t :: us)).depth := by
  have hunary : (unary (t :: us)).depth = 1 + (primary (t :: us)).depth := by
    rw [unary, if_neg (by simp [ht]), Bounded.depth_nested]
  have hprimary : 1 + (whole us).depth ≤ (primary (t :: us)).depth := by
    rw [primary_of_open ht, Bounded.depth_nested]
    exact Nat.add_le_add_left Bounded.depth_le_bind 1
  have hlevel := unary_le_level (t :: us)
  show 15 + (whole us).depth ≤ 1 + (level .or (t :: us)).depth
  omega

/-- A row of them takes so many for each. -/
lemma le_whole_depth {os : List Token} (h : ∀ o ∈ os, o.kind = .openParen) (us : List Token) :
    15 * os.length ≤ (whole (os ++ us)).depth := by
  induction os with
  | nil => exact Nat.zero_le _
  | cons o os ih =>
      obtain ⟨ho, hos⟩ := List.forall_mem_cons.1 h
      have hopen := whole_depth_open ho (os ++ us)
      have hrest := ih hos
      rw [List.length_cons, List.cons_append]
      omega

/-! ### Readers -/

namespace Reader

/-- The draft behind the reader is as deep as the one before it or deeper, but no deeper than the tokens
make it. -/
def Tracks (r : Reader α) : Prop :=
  ∀ d ts, d.depth ≤ (r d ts).1.depth ∧ (r d ts).1.depth ≤ max d.depth (15 * ts.length + 14)

/-- A reader that leaves the depth of the draft alone. -/
lemma tracks_of_eq {r : Reader α} (h : ∀ d ts, (r d ts).1.depth = d.depth) : Tracks r := by
  intro d ts
  rw [h d ts]
  exact ⟨Nat.le_refl _, Nat.le_max_left _ _⟩

lemma Tracks.bind {r : Reader α} {f : α → Reader β} (hr : Tracks r) (hshrinks : Shrinks r)
    (hf : ∀ v, Tracks (f v)) : Tracks (r >>= f) := by
  intro d ts
  obtain ⟨hle, hge⟩ := hr d ts
  have hlength := hshrinks d ts
  obtain ⟨d', v, rest, he, hb⟩ | ⟨d', p, rest, he, hb⟩ | ⟨d', he, hb⟩ := bind_cases r f d ts
  · rw [he] at hle hge hlength
    obtain ⟨hle', hge'⟩ := hf v d' rest
    have hrest : rest.length ≤ ts.length := hlength
    dsimp only at hle hge
    rw [hb]
    omega
  · rw [he] at hle hge
    rw [hb]
    exact ⟨hle, hge⟩
  · rw [he] at hle hge
    rw [hb]
    exact ⟨hle, hge⟩

lemma tracks_expr : Tracks expr := by
  intro d ts
  have hwhole := whole_depth_le ts
  show d.depth ≤ max d.depth (whole ts).depth ∧ max d.depth (whole ts).depth ≤ _
  omega

lemma tracks_direction (axis : Axis) : Tracks (direction axis) := by
  intro d ts
  cases ts with
  | nil => exact ⟨Nat.le_refl _, Nat.le_max_left _ _⟩
  | cons t us =>
      have h := tracks_expr d (t :: us)
      rw [direction]
      split
      · next d' e rest he =>
        rw [he] at h
        repeat' split
        all_goals exact h
      · next d' a _ he =>
        rw [he] at h
        exact h

lemma depth_refuseIf (kind : Kind) (cause : Problem.Cause) (d : Draft) (ts : List Token) :
    (refuseIf kind cause d ts).1.depth = d.depth := by
  cases ts with
  | nil => rfl
  | cons t us =>
      rw [refuseIf]
      split <;> rfl

lemma depth_expectEither (k₁ k₂ : Kind) (cause : Problem.Cause) (d : Draft) (ts : List Token) :
    (expectEither k₁ k₂ cause d ts).1.depth = d.depth := by
  cases ts with
  | nil => rfl
  | cons t us =>
      rw [expectEither]
      split <;> rfl

lemma depth_beginSpawn (d : Draft) (ts : List Token) : (beginSpawn d ts).1.depth = d.depth := by
  rw [beginSpawn]
  split
  · cases ts <;> rfl
  · rfl

lemma depth_declare (d : Draft) (t : Token) : (d.declare t).depth = d.depth := by
  rw [Draft.declare]
  split <;> rfl

lemma depth_lineEnd (after : String) (d : Draft) (ts : List Token) :
    (lineEnd after d ts).1.depth = d.depth := by
  cases ts with
  | nil => rfl
  | cons t us =>
      rw [lineEnd]
      repeat' split
      all_goals rfl

lemma tracks_expect (kind : Kind) (cause : Problem.Cause) : Tracks (expect kind cause) :=
  tracks_of_eq fun _ _ => rfl

lemma tracks_target : Tracks target := by
  rw [target]
  refine (tracks_expect _ _).bind (shrinks_expect _ _) fun _ => ?_
  refine (tracks_expect _ _).bind (shrinks_expect _ _) fun _ => ?_
  refine (tracks_expect _ _).bind (shrinks_expect _ _) fun _ => ?_
  exact tracks_of_eq fun _ _ => rfl

variable {D : Token → Prop}

lemma Inner.tracks {r : Reader α} (h : Inner D r) : Tracks r := by
  induction h with
  | pure v => exact tracks_of_eq fun _ _ => rfl
  | bind hr _ ihr ihf => exact ihr.bind hr.shrinks ihf
  | refuseIf => exact tracks_of_eq (depth_refuseIf _ _)
  | expect => exact tracks_expect _ _
  | expectEither => exact tracks_of_eq (depth_expectEither _ _ _)
  | expr => exact tracks_expr
  | direction axis => exact tracks_direction axis
  | beginSpawn => exact tracks_of_eq depth_beginSpawn
  | target => exact tracks_target
  | declare => exact tracks_of_eq fun d _ => depth_declare d _

lemma Line.tracks {r : Reader α} (h : Line D r) : Tracks r := by
  induction h with
  | lineEnd after => exact tracks_of_eq (depth_lineEnd after)
  | bind hr _ ihf => exact hr.tracks.bind hr.shrinks ihf
  | map hr g ihr => exact ihr.bind hr.shrinks fun _ => tracks_of_eq fun _ _ => rfl

/-- What the first of two readers has reached is not lost in the second. -/
lemma le_depth_bind {r : Reader α} {f : α → Reader β} (hf : ∀ v, Tracks (f v)) (d : Draft)
    (ts : List Token) : (r d ts).1.depth ≤ ((r >>= f) d ts).1.depth := by
  obtain ⟨d', v, rest, he, hb⟩ | ⟨d', p, rest, he, hb⟩ | ⟨d', he, hb⟩ := bind_cases r f d ts
  · rw [he, hb]
    exact (hf v d' rest).1
  · exact Nat.le_of_eq (by rw [he, hb])
  · exact Nat.le_of_eq (by rw [he, hb])

/-- Where the first argument of a command begins with parentheses that open, these are all counted. -/
lemma le_firstArgument_depth {o : Token} {os : List Token} (ho : o.kind = .openParen)
    (hos : ∀ o ∈ os, o.kind = .openParen) (c : Command) (d : Draft) (us : List Token) :
    15 * os.length ≤ (firstArgument c d (o :: (os ++ us))).1.depth := by
  have hopen : firstArgument c d (o :: (os ++ us)) = expr d (os ++ us) := by
    show (openArguments c >>= fun _ => expr) d (o :: (os ++ us)) = _
    simp only [bind, openArguments, expect, Bounded.expect, if_pos ho, Bounded.found]
  rw [hopen]
  exact Nat.le_trans (le_whole_depth hos us) (Nat.le_max_right _ _)

lemma le_spawn_depth {o : Token} {os : List Token} (ho : o.kind = .openParen)
    (hos : ∀ o ∈ os, o.kind = .openParen) {d : Draft} (hd : d.hasSpawn = false) (us : List Token) :
    15 * os.length ≤ (spawn d (o :: (os ++ us))).1.depth := by
  have hrest : ∀ x, Tracks (do
      let y ← furtherArgument .spawn
      endCommand .spawn 2
      return Action.spawn x y) := fun x =>
    Line.tracks (D := fun _ => True)
      (.bind (furtherArgument_inner _) fun _ => .map (endCommand_line ..) _)
  have hbegin : spawn d (o :: (os ++ us)) = (firstArgument .spawn >>= fun x => do
      let y ← furtherArgument .spawn
      endCommand .spawn 2
      return Action.spawn x y) { d with hasSpawn := true } (o :: (os ++ us)) := by
    have hfound : beginSpawn d (o :: (os ++ us)) =
        ({ d with hasSpawn := true }, .found () (o :: (os ++ us))) := by
      rw [beginSpawn, if_neg (by simp [hd])]
    rw [spawn]
    simp only [bind, hfound]
  rw [hbegin]
  exact Nat.le_trans (le_firstArgument_depth ho hos _ _ us) (le_depth_bind hrest _ _)

end Reader

/-! ### Programs -/

lemma add_depth (d : Draft) (s : Stmt) : (d.add s).depth = d.depth := by
  rw [Draft.add]
  split <;> rfl

lemma conclude_depth (t : Token) (out : Draft × Answer Action) :
    (conclude t out).1.depth = out.1.depth := by
  obtain ⟨d, a⟩ := out
  cases a with
  | found action rest => exact add_depth d _
  | refused p rest => rfl
  | cut => rfl

/-- A step tracks the depth of the draft as its reader does. -/
lemma step_tracks (d : Draft) (t : Token) (us : List Token) :
    d.depth ≤ (step d t us).1.depth ∧
      (step d t us).1.depth ≤ max d.depth (15 * us.length + 14) := by
  rw [step]
  split
  · exact ⟨Nat.le_refl _, Nat.le_max_left _ _⟩
  · split
    · next r hr =>
      rw [conclude_depth]
      exact (statementAt_line hr).tracks d us
    · exact ⟨Nat.le_refl _, Nat.le_max_left _ _⟩

lemma readAll_tracks (d : Draft) (ts : List Token) :
    d.depth ≤ (readAll d ts).1.depth ∧
      (readAll d ts).1.depth ≤ max d.depth (15 * ts.length + 14) := by
  fun_induction readAll d ts with
  | case1 d => exact ⟨Nat.le_refl _, Nat.le_max_left _ _⟩
  | case2 d t us ht => exact ⟨Nat.le_refl _, Nat.le_max_left _ _⟩
  | case3 d t us ht d' rest h ih =>
      obtain ⟨hle, hge⟩ := step_tracks d t us
      have hlength := step_length h
      rw [h] at hle hge
      dsimp only at hle hge
      rw [List.length_cons]
      omega
  | case4 d t us ht d' h =>
      obtain ⟨hle, hge⟩ := step_tracks d t us
      rw [h] at hle hge
      dsimp only at hle hge ⊢
      rw [List.length_cons]
      omega

lemma ofTokens_depth (ts : List Token) :
    (Parse.ofTokens ts).draft.depth = (readAll .empty ts).1.depth := by
  cases hread : readAll { Draft.empty with statements := #[] } ts with
  | mk d rest =>
      have hdepth : (readAll .empty ts).1.depth = d.depth := congrArg (·.1.depth) hread
      rw [hdepth, Parse.ofTokens, Parse.resume, hread]
      cases rest <;> rfl

/-- **Programs** are read with no more than 15 calls inside one another for each token, and 14 more. -/
theorem ofTokens_depth_le (ts : List Token) :
    (Parse.ofTokens ts).draft.depth ≤ 15 * ts.length + 14 := by
  have h := (readAll_tracks .empty ts).2
  have hzero : Draft.empty.depth = 0 := rfl
  rw [ofTokens_depth]
  omega

/-- **Every parenthesis counts**: a program that begins with a row of them in its first argument is read
with 15 calls inside one another for each. -/
theorem le_ofTokens_depth {o : Token} {os : List Token} (ht : t.kind = .command .spawn)
    (ho : o.kind = .openParen) (hos : ∀ o ∈ os, o.kind = .openParen) (us : List Token) :
    15 * os.length ≤ (Parse.ofTokens (t :: o :: (os ++ us))).draft.depth := by
  have hstatement : statementAt t (o :: (os ++ us)) = some Reader.spawn := by
    rw [statementAt, ht]
    rfl
  have hstep : 15 * os.length ≤ (step .empty t (o :: (os ++ us))).1.depth := by
    rw [step, if_neg (by simp [ht]), hstatement]
    dsimp only
    rw [conclude_depth]
    exact Reader.le_spawn_depth ho hos rfl us
  rw [ofTokens_depth, readAll, if_neg (by simp [ht])]
  split
  · next d rest h =>
    rw [h] at hstep
    exact Nat.le_trans hstep (readAll_tracks d rest).1
  · next d h =>
    rw [h] at hstep
    exact hstep

end Brushwork.Grammar
