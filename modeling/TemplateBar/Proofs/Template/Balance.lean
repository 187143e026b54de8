import TemplateBar.Proofs.Template.Checked
import TemplateBar.Proofs.Template.Parse

/-!
# Levels and cursor are balanced

The checked grammar never goes wrong, and it does what the parser does. `Agrees` says so of one
step, together with how the step leaves the cursor; each combinator and then each rule keeps it. The
rounds that a loop needs are bounded by the lexemes ahead, as each round reads one at least and the
last lexeme is never passed.
-/
namespace TemplateBar.Template

/-- The end of the source is the last lexeme. -/
def Terminated (ls : List Lexeme) : Prop := ls.getLast?.map (·.kind) = some .eof

instance (ls : List Lexeme) : Decidable (Terminated ls) :=
  inferInstanceAs (Decidable (_ = some LexemeKind.eof))

namespace Terminated

theorem ne_nil {ls : List Lexeme} (h : Terminated ls) : ls ≠ [] := by
  rintro rfl
  simp [Terminated] at h

theorem length_pos {ls : List Lexeme} (h : Terminated ls) : 0 < ls.length :=
  List.length_pos_iff.mpr h.ne_nil

theorem tail {l next : Lexeme} {rest : List Lexeme} (h : Terminated (l :: next :: rest)) :
    Terminated (next :: rest) := by
  simpa [Terminated, List.getLast?_cons_cons] using h

/-- Before a lexeme that is not the end another one stands. -/
theorem exists_next {c : Cursor} (h : Terminated c.ahead) (hk : (Parse.current c).kind ≠ .eof) :
    ∃ l next rest, c.ahead = l :: next :: rest := by
  obtain ⟨ahead, depth⟩ := c
  match ahead, h, hk with
  | [l], h, hk => exact absurd (by simpa [Terminated] using h : l.kind = .eof) hk
  | l :: next :: rest, _, _ => exact ⟨l, next, rest, rfl⟩

end Terminated

theorem Ended.terminated {ls : List Lexeme} (h : Ended ls) : Terminated ls := by
  induction h with
  | last => rfl
  | @cons l ls _ later ih =>
    obtain ⟨next, rest, rfl⟩ := List.exists_cons_of_ne_nil ih.ne_nil
    simpa [Terminated, List.getLast?_cons_cons] using ih

variable {α β : Type} {used more bound : Nat} {c : Cursor}

/-- How a step may leave the cursor: on success it has read `used` lexemes at least and no level is
held, on failure no level is missing, and the end of the source is ahead in both cases. -/
structure Safe (used : Nat) (c : Cursor) (r : Except EvalError α × Cursor) : Prop where
  suffix : r.2.ahead <:+ c.ahead
  terminated : Terminated r.2.ahead
  balanced : ∀ a, r.1 = .ok a → r.2.depth = c.depth ∧ r.2.ahead.length + used ≤ c.ahead.length
  held : ∀ e, r.1 = .error e → c.depth ≤ r.2.depth

namespace Safe

theorem of_ok {a : α} (h : Terminated c.ahead) : Safe 0 c (Except.ok a, c) where
  suffix := List.suffix_refl _
  terminated := h
  balanced := fun _ _ => ⟨rfl, Nat.le_refl _⟩
  held := by simp

theorem of_error {e : EvalError} {c' : Cursor} (h : Terminated c.ahead) (ha : c'.ahead = c.ahead)
    (hd : c.depth ≤ c'.depth) : Safe used c (Except.error e (α := α), c') where
  suffix := ha ▸ List.suffix_refl _
  terminated := ha ▸ h
  balanced := by simp
  held := fun _ _ => hd

theorem trans {c' : Cursor} {a : α} {r : Except EvalError β × Cursor}
    (h : Safe used c (.ok a, c')) (h' : Safe more c' r) : Safe (used + more) c r where
  suffix := h'.suffix.trans h.suffix
  terminated := h'.terminated
  balanced := fun b hb => by
    obtain ⟨hd, hlen⟩ : c'.depth = c.depth ∧ c'.ahead.length + used ≤ c.ahead.length :=
      h.balanced a rfl
    obtain ⟨hd', hlen'⟩ := h'.balanced b hb
    exact ⟨hd'.trans hd, by omega⟩
  held := fun e he => by
    have hd : c'.depth = c.depth := (h.balanced a rfl).1
    exact hd ▸ h'.held e he

theorem error_of {e : EvalError} {c' : Cursor} (h : Safe used c (Except.error e (α := α), c')) :
    Safe more c (Except.error e (α := β), c') :=
  ⟨h.suffix, h.terminated, by simp, fun _ _ => h.held e rfl⟩

theorem mono {r : Except EvalError α × Cursor} (h : Safe used c r) (hm : more ≤ used) :
    Safe more c r where
  suffix := h.suffix
  terminated := h.terminated
  balanced := fun a ha => by
    have := h.balanced a ha
    exact ⟨this.1, by omega⟩
  held := h.held

/-- A step that was run one level deeper leaves that level to be given back. -/
theorem shallower {r : Except EvalError α} {c' : Cursor} {ahead : List Lexeme} {d : Nat}
    (h : Safe used ⟨ahead, d + 1⟩ (r, c')) :
    1 ≤ c'.depth ∧ Safe used ⟨ahead, d⟩ (r, { c' with depth := c'.depth - 1 }) := by
  have hpos : d + 1 ≤ c'.depth := by
    cases r with
    | ok a => exact Nat.le_of_eq (h.balanced a rfl).1.symm
    | error e => exact h.held e rfl
  refine ⟨by omega, h.suffix, h.terminated, fun a ha => ?_, fun e he => ?_⟩
  · have hb := h.balanced a ha
    exact ⟨by simp only at hb ⊢; omega, hb.2⟩
  · simp only
    omega

end Safe

/-- The checked step does not go wrong and does what the plain one does, safely. -/
def AgreesAt (used : Nat) (c : Cursor) (m : Checked α) (p : Parse α) : Prop :=
  m c = some (p c) ∧ Safe used c (p c)

/-- A checked step agrees with a plain one wherever at most `bound` lexemes are ahead. -/
def Agrees (used bound : Nat) (m : Checked α) (p : Parse α) : Prop :=
  ∀ c, Terminated c.ahead → c.ahead.length ≤ bound → AgreesAt used c m p

namespace AgreesAt

variable {m : Checked α} {p : Parse α} {f : α → Checked β} {g : α → Parse β}

theorem mono (h : AgreesAt used c m p) (hm : more ≤ used) : AgreesAt more c m p :=
  ⟨h.1, h.2.mono hm⟩

theorem pure (h : Terminated c.ahead) (a : α) : AgreesAt 0 c (Pure.pure a) (Pure.pure a) :=
  ⟨rfl, Safe.of_ok h⟩

theorem bind (h : AgreesAt used c m p)
    (hf : ∀ a, (p c).1 = .ok a → Agrees (more - used) (c.ahead.length - used) (f a) (g a)) :
    AgreesAt more c (m >>= f) (p >>= g) := by
  obtain ⟨hm, hs⟩ := h
  cases hp : p c with
  | mk r c' =>
    rw [hp] at hm hs
    cases r with
    | error e =>
      rw [AgreesAt, Parse.bind_of_error hp]
      exact ⟨Checked.bind_of_error hm, hs.error_of⟩
    | ok a =>
      have hlen : c'.ahead.length + used ≤ c.ahead.length := (hs.balanced a rfl).2
      obtain ⟨hc, hs'⟩ := hf a (by rw [hp]) c' hs.terminated (by omega)
      rw [AgreesAt, Parse.bind_of_ok hp, Checked.bind_of_ok hm]
      exact ⟨hc, (hs.trans hs').mono (by omega)⟩

theorem peek_bind {f : LexemeKind → Checked β} {g : LexemeKind → Parse β} (h : Terminated c.ahead)
    (hk : AgreesAt used c (f (Parse.current c).kind) (g (Parse.current c).kind)) :
    AgreesAt used c (Checked.peek >>= f) (Parse.peek >>= g) := by
  obtain ⟨ahead, d⟩ := c
  obtain ⟨l, ls, rfl⟩ := List.exists_cons_of_ne_nil h.ne_nil
  exact hk

theorem reject (h : Terminated c.ahead) (cause : LexemeKind → SyntaxCause) :
    AgreesAt used c (Checked.reject (α := α) cause) (Parse.reject cause) := by
  obtain ⟨ahead, d⟩ := c
  obtain ⟨l, ls, rfl⟩ := List.exists_cons_of_ne_nil h.ne_nil
  exact ⟨rfl, Safe.of_error h rfl (Nat.le_refl _)⟩

theorem advance (h : Terminated c.ahead) (hk : (Parse.current c).kind ≠ .eof) :
    AgreesAt 1 c Checked.advance Parse.advance := by
  obtain ⟨l, next, rest, hl⟩ := h.exists_next hk
  obtain ⟨ahead, d⟩ := c
  obtain rfl : ahead = l :: next :: rest := hl
  exact ⟨rfl, List.suffix_cons _ _, h.tail, fun _ _ => ⟨rfl, Nat.le_refl _⟩,
    by simp [Parse.advance]⟩

theorem advance_bind {f : Unit → Checked β} {g : Unit → Parse β} (h : Terminated c.ahead)
    (hk : (Parse.current c).kind ≠ .eof)
    (hf : Agrees (more - 1) (c.ahead.length - 1) (f ()) (g ())) :
    AgreesAt more c (Checked.advance >>= f) (Parse.advance >>= g) :=
  (advance h hk).bind fun _ _ => hf

theorem eat (h : Terminated c.ahead) (s : Symbol) :
    AgreesAt (if (Parse.current c).kind = .symbol s then 1 else 0) c (Checked.eat s)
      (Parse.eat s) := by
  have heat : Parse.eat s c = (Parse.peek >>= fun k =>
      if k = .symbol s then Parse.advance >>= fun _ => Pure.pure true else Pure.pure false) c := by
    rw [Parse.peek_bind]
    unfold Parse.eat
    split <;> rfl
  rw [AgreesAt, heat]
  refine peek_bind h ?_
  split
  · rename_i hk
    exact advance_bind h (by simp [hk]) fun _ hc _ => .pure hc true
  · exact .pure h false

/-- If the symbol is there it is passed, else the cursor stays. -/
theorem eat_bind {s : Symbol} {f : Bool → Checked β} {g : Bool → Parse β} (h : Terminated c.ahead)
    (ht : Agrees (more - 1) (c.ahead.length - 1) (f true) (g true))
    (hf : Agrees more c.ahead.length (f false) (g false)) :
    AgreesAt more c (Checked.eat s >>= f) (Parse.eat s >>= g) := by
  refine (eat h s).bind fun b hb => ?_
  unfold Parse.eat at hb
  split at hb
  · cases hb
    rwa [if_pos ‹_›]
  · cases hb
    rwa [if_neg ‹_›]

end AgreesAt

namespace Agrees

variable {m : Checked α} {p : Parse α} {f : α → Checked β} {g : α → Parse β}

theorem mono (h : Agrees used bound m p) {bound' : Nat} (hm : more ≤ used) (hb : bound' ≤ bound) :
    Agrees more bound' m p :=
  fun c hc hlen => (h c hc (Nat.le_trans hlen hb)).mono hm

theorem within (h : Agrees used bound m p) {bound' : Nat} (hb : bound' ≤ bound) :
    Agrees used bound' m p :=
  h.mono (Nat.le_refl _) hb

theorem pure (a : α) : Agrees 0 bound (Pure.pure a) (Pure.pure a) :=
  fun _ hc _ => .pure hc a

theorem bind (h : Agrees used bound m p)
    (hf : ∀ a, Agrees (more - used) (bound - used) (f a) (g a)) :
    Agrees more bound (m >>= f) (p >>= g) :=
  fun c hc hlen => (h c hc hlen).bind fun a _ => (hf a).within (by omega)

theorem reject (cause : LexemeKind → SyntaxCause) :
    Agrees used bound (Checked.reject (α := α) cause) (Parse.reject cause) :=
  fun _ hc _ => .reject hc cause

/-- Nothing is asserted of a step that has no lexeme to read. -/
theorem of_zero : Agrees used 0 m p :=
  fun _ hc hlen => absurd hc.length_pos (by omega)

theorem fueled {p : Nat → Parse α} (h : ∀ n, Agrees used (min bound n) m (p n)) :
    Agrees used bound m (Parse.fueled p) :=
  fun c hc hlen => h c.ahead.length c hc (Nat.le_min.mpr ⟨hlen, Nat.le_refl _⟩)

theorem eat_bind {s : Symbol} {f : Bool → Checked β} {g : Bool → Parse β}
    (ht : Agrees (used - 1) (bound - 1) (f true) (g true))
    (hf : Agrees used bound (f false) (g false)) :
    Agrees used bound (Checked.eat s >>= f) (Parse.eat s >>= g) :=
  fun _ hc hlen => .eat_bind hc (ht.within (Nat.sub_le_sub_right hlen 1)) (hf.within hlen)

theorem expect (s : Symbol) : Agrees 1 bound (Checked.expect s) (Parse.expect s) := by
  intro c hc hlen
  have hexpect : Parse.expect s c = (Parse.eat s >>= fun b =>
      if b then Pure.pure () else Parse.reject (.expected s)) c := by
    rw [Parse.bind_apply]
    unfold Parse.expect Parse.eat
    split <;> rfl
  rw [AgreesAt, hexpect]
  exact AgreesAt.eat_bind hc (.pure ()) (.reject _)

theorem nested (D : Nat) (h : Agrees used bound m p) :
    Agrees used bound (Checked.nested D m) (Parse.nested D p) := by
  intro c hc hlen
  unfold AgreesAt Parse.nested
  dsimp only
  by_cases hd : D < c.depth + 1
  · rw [if_pos hd]
    refine ⟨Checked.bind_of_error ?_, Safe.of_error hc rfl (Nat.le_succ _)⟩
    exact if_pos hd
  · rw [if_neg hd]
    obtain ⟨hm, hs⟩ := h ⟨c.ahead, c.depth + 1⟩ hc hlen
    obtain ⟨hpos, hs'⟩ := hs.shallower
    have henter : Checked.enter D c = some (.ok (), ⟨c.ahead, c.depth + 1⟩) := if_neg hd
    refine ⟨?_, hs'⟩
    rw [Checked.nested, Checked.bind_of_ok henter]
    simp only [Checked.releasing, hm, Checked.released]
    simp [hpos]

theorem operandsAfter {l : Level} {operand : Checked Expr} {operand' : Parse Expr}
    (h : Agrees 1 bound operand operand') (k n : Nat) :
    Agrees 0 (min (min k bound) n) (Checked.operandsAfter l.operator? operand k)
      (Expr.operandsAfter l.operator? operand' n) := by
  induction k generalizing n with
  | zero => exact of_zero.within (by omega)
  | succ k ih =>
    cases n with
    | zero => exact of_zero.within (by omega)
    | succ n =>
      intro c hc hlen
      refine AgreesAt.peek_bind hc ?_
      cases hop : l.operator? (Parse.current c).kind with
      | none => exact .pure hc _
      | some op =>
        obtain ⟨s, hk, -⟩ := Level.mem_of_operator? hop
        refine AgreesAt.advance_bind hc (by simp [hk]) (bind (h.within (by omega)) fun e => ?_)
        exact bind ((ih n).within (by omega)) fun rest => .pure _

theorem runs {operand : Checked Expr} {operand' : Parse Expr} (h : Agrees 1 bound operand operand')
    {fuel : Nat} (hf : bound ≤ fuel) (levels : List Level) :
    Agrees 1 bound (Checked.runs fuel levels operand) (Expr.runs levels operand') := by
  induction levels with
  | nil => exact h
  | cons l ls ih =>
    rw [Expr.runs_cons]
    have hrest : Agrees 0 (bound - 1)
        (Checked.operandsAfter l.operator? (Checked.runs fuel ls operand) fuel)
        (Parse.fueled (Expr.operandsAfter l.operator? (Expr.runs ls operand'))) :=
      fueled fun n => (operandsAfter ih fuel n).within (by omega)
    exact bind ih fun first => bind hrest fun rest => .pure _

theorem itemsUntil {item : Checked α} {item' : Parse α} (h : Agrees 1 bound item item')
    (close : Symbol) (k n : Nat) :
    Agrees 1 (min (min k bound) n) (Checked.itemsUntil item close k)
      (Expr.itemsUntil item' close n) := by
  induction k generalizing n with
  | zero => exact of_zero.within (by omega)
  | succ k ih =>
    cases n with
    | zero => exact of_zero.within (by omega)
    | succ n =>
      refine bind (h.within (by omega)) fun e => eat_bind (.pure _) ?_
      refine bind (expect .comma) fun _ => bind ((ih n).within (by omega)) fun rest => .pure _

theorem list {item : Checked α} {item' : Parse α} (h : Agrees 1 bound item item') {fuel : Nat}
    (hf : bound ≤ fuel) (close : Symbol) :
    Agrees 1 bound (Checked.list fuel item close) (Expr.list item' close) := by
  refine eat_bind (.pure _) (fueled fun n => ?_)
  exact (itemsUntil h close fuel n).within (by omega)

theorem key : Agrees 1 bound Checked.key Expr.key := by
  intro c hc _
  refine AgreesAt.peek_bind hc ?_
  generalize hk : (Parse.current c).kind = k
  cases k with
  | name | string => exact AgreesAt.advance_bind hc (by simp [hk]) (.pure _)
  | number | symbol | eof => exact .reject hc _

theorem property : Agrees 1 bound Checked.property Expr.property := by
  intro c hc _
  refine AgreesAt.peek_bind hc ?_
  generalize hk : (Parse.current c).kind = k
  cases k with
  | name => exact AgreesAt.advance_bind hc (by simp [hk]) (.pure _)
  | number | string | symbol | eof => exact .reject hc _

variable {expr : Checked Expr} {expr' : Parse Expr}

theorem field (h : Agrees 1 bound expr expr') :
    Agrees 1 bound (Checked.field expr) (Expr.field expr') := by
  refine bind key fun k => bind (expect .colon) fun _ => ?_
  exact bind (h.within (by omega)) fun e => .pure _

theorem primary (h : Agrees 1 bound expr expr') {fuel : Nat} (hf : bound ≤ fuel) :
    Agrees 1 (bound + 1) (Checked.primary fuel expr) (Expr.primary expr') := by
  intro c hc hlen
  refine AgreesAt.peek_bind hc ?_
  have hinner : c.ahead.length - 1 ≤ bound := by omega
  generalize hk : (Parse.current c).kind = k
  cases k with
  | number | string | name => exact AgreesAt.advance_bind hc (by simp [hk]) (.pure _)
  | eof => exact .reject hc _
  | symbol s =>
    cases s with
    | true | false | null => exact AgreesAt.advance_bind hc (by simp [hk]) (.pure _)
    | openParen =>
      refine AgreesAt.advance_bind hc (by simp [hk]) (bind (h.within hinner) fun e => ?_)
      exact bind (expect .closeParen) fun _ => .pure e
    | openBracket =>
      refine AgreesAt.advance_bind hc (by simp [hk]) ?_
      exact bind ((list h hf _).within hinner) fun _ => .pure _
    | openBrace =>
      refine AgreesAt.advance_bind hc (by simp [hk]) ?_
      exact bind ((list h.field hf _).within hinner) fun _ => .pure _
    | _ => exact .reject hc _

end Agrees

/-! ## Links -/

theorem Parse.bind_assoc {γ : Type} (p : Parse α) (f : α → Parse β) (g : β → Parse γ) :
    (p >>= f) >>= g = p >>= fun a => f a >>= g := by
  funext c
  simp only [Parse.bind_apply]
  rcases p c with ⟨_ | _, _⟩ <;> rfl

theorem Parse.charged_congr {D : Nat} {p q : Parse α}
    (h : p { c with depth := c.depth + 1 } = q { c with depth := c.depth + 1 }) :
    Parse.charged D p c = Parse.charged D q c := by
  simp only [Parse.charged, h]

namespace Expr

/-- One link behind `e`. -/
def link (expr : Parse Expr) (e : Expr) : Parse Expr := do
  match ← Parse.peek with
  | .symbol .dot =>
    Parse.advance
    let p ← property
    return member e p
  | .symbol .openBracket =>
    Parse.advance
    let i ← expr
    Parse.expect .closeBracket
    return index e i
  | .symbol .openParen =>
    Parse.advance
    let args ← list expr .closeParen
    return call e args
  | _ => return e

theorem links_of_isLink {D : Nat} {expr : Parse Expr} (h : (Parse.current c).kind.isLink = true)
    (n : Nat) (e : Expr) :
    links D expr (n + 1) e c = Parse.charged D (link expr e >>= links D expr n) c := by
  rw [links, Parse.peek_bind]
  generalize hk : (Parse.current c).kind = k at h
  unfold LexemeKind.isLink at h
  split at h
  case h_4 => simp at h
  all_goals
    refine Parse.charged_congr ?_
    rw [link, Parse.bind_assoc, Parse.peek_bind]
    simp only [Parse.current] at hk ⊢
    rw [hk]
    simp only [Parse.bind_assoc]
    rfl

/-- A base and, behind the sign of a power, its exponent. -/
def powerOf (maxDepth : Nat) (base exponent : Parse Expr) : Parse Expr := do
  let b ← base
  if ← Parse.eat .caret then
    let x ← Parse.nested maxDepth exponent
    return power b x
  else return b

def sourceOf (maxDepth : Nat) : Parse Expr := do
  if (← Parse.peek) = .eof then Parse.fail (.syntaxError 0 .emptySource)
  else
    let e ← entire maxDepth
    if (← Parse.peek) = .eof then return e else Parse.reject .unexpected

end Expr

namespace Agrees

variable {D : Nat} {expr : Checked Expr} {expr' : Parse Expr}

theorem link (h : Agrees 1 bound expr expr') {fuel : Nat} (hf : bound ≤ fuel) (e : Expr)
    (hc : Terminated c.ahead) (hlen : c.ahead.length ≤ bound + 1)
    (hl : (Parse.current c).kind.isLink = true) :
    AgreesAt 1 c (Checked.link fuel expr e) (Expr.link expr' e) := by
  refine AgreesAt.peek_bind hc ?_
  have hinner : c.ahead.length - 1 ≤ bound := by omega
  generalize hk : (Parse.current c).kind = k at hl ⊢
  unfold LexemeKind.isLink at hl
  split at hl
  · exact AgreesAt.advance_bind hc (by simp [hk]) (bind property fun p => .pure _)
  · refine AgreesAt.advance_bind hc (by simp [hk]) (bind (h.within hinner) fun i => ?_)
    exact bind (expect .closeBracket) fun _ => .pure _
  · refine AgreesAt.advance_bind hc (by simp [hk]) ?_
    exact bind ((list h hf _).within hinner) fun args => .pure _
  · simp at hl

/-- One link with its level: a failure leaves this level to be given back with those of the links in
front, and behind a success the chain goes on one level deeper. -/
theorem charged_link (h : Agrees 1 bound expr expr') {fuel : Nat} (hf : bound ≤ fuel) (e : Expr)
    {ahead : List Lexeme} {d : Nat} (hc : Terminated ahead) (hlen : ahead.length ≤ bound + 1)
    (hl : (Parse.current ⟨ahead, d⟩).kind.isLink = true) :
    (∃ err c', (Checked.enter D >>= fun _ => Checked.link fuel expr e) ⟨ahead, d⟩ =
        some (.error err, c') ∧
      1 ≤ c'.depth ∧
      (∀ f : Expr → Parse Expr, Parse.charged D (Expr.link expr' e >>= f) ⟨ahead, d⟩ =
        (.error err, { c' with depth := c'.depth - 1 })) ∧
      Safe 0 ⟨ahead, d⟩ (Except.error err (α := Expr), { c' with depth := c'.depth - 1 })) ∨
    ∃ e' c', (Checked.enter D >>= fun _ => Checked.link fuel expr e) ⟨ahead, d⟩ =
        some (.ok e', c') ∧
      Safe 1 ⟨ahead, d + 1⟩ (.ok e', c') ∧
      ∀ (f : Expr → Parse Expr) r c'', f e' c' = (r, c'') →
        Parse.charged D (Expr.link expr' e >>= f) ⟨ahead, d⟩ =
          (r, { c'' with depth := c''.depth - 1 }) := by
  by_cases hd : D < d + 1
  · -- The level of this link is refused, and yet it is held like the others.
    have henter : Checked.enter D ⟨ahead, d⟩ = some (.error (.depthLimit D), ⟨ahead, d + 1⟩) :=
      if_pos hd
    exact Or.inl ⟨_, _, Checked.bind_of_error henter, Nat.succ_pos d, fun f => if_pos hd,
      .of_error hc rfl (Nat.le_refl d)⟩
  · have henter : Checked.enter D ⟨ahead, d⟩ = some (.ok (), ⟨ahead, d + 1⟩) := if_neg hd
    have hcharged (f : Expr → Parse Expr) := (takesLevel_charged (D := D)
      (Expr.link expr' e >>= f) ⟨ahead, d⟩).granted (Nat.not_lt.mp hd)
    obtain ⟨hlink, hs⟩ := link (c := ⟨ahead, d + 1⟩) h hf e hc hlen hl
    rw [Checked.bind_of_ok henter, hlink]
    cases hp : Expr.link expr' e ⟨ahead, d + 1⟩ with
    | mk r c' =>
      rw [hp] at hs
      cases r with
      | error err =>
        obtain ⟨hpos, hs'⟩ := hs.shallower
        exact Or.inl ⟨err, c', rfl, hpos, fun f => hcharged f _ _ (Parse.bind_of_error hp),
          hs'.error_of⟩
      | ok e' =>
        exact Or.inr ⟨e', c', rfl, hs, fun f r c'' hlater =>
          hcharged f _ _ ((Parse.bind_of_ok hp).trans hlater)⟩

/-- The plain links give each level back behind the rest of the chain, the checked ones hold them
all and say how many they are. -/
theorem links (h : Agrees 1 bound expr expr') {fuel : Nat} (hf : bound ≤ fuel) (k n held : Nat)
    (e : Expr) (hc : Terminated c.ahead) (hlen : c.ahead.length ≤ min (min k (bound + 1)) n) :
    ∃ r count c', Checked.links D fuel expr k held e c = some (r, held + count, c') ∧
      count ≤ c'.depth ∧
      Expr.links D expr' n e c = (r, { c' with depth := c'.depth - count }) ∧
      Safe 0 c (r, { c' with depth := c'.depth - count }) := by
  induction k generalizing n held e c with
  | zero => exact absurd hc.length_pos (by omega)
  | succ k ih =>
    obtain ⟨n, rfl⟩ : ∃ m, n = m + 1 := ⟨n - 1, by have := hc.length_pos; omega⟩
    rw [Checked.links_succ hc.ne_nil]
    cases hl : (Parse.current c).kind.isLink with
    | false => exact ⟨.ok e, 0, c, rfl, Nat.zero_le _, Phrase.links_of_not_isLink hl, .of_ok hc⟩
    | true =>
      rw [Expr.links_of_isLink hl, if_pos rfl]
      obtain ⟨ahead, d⟩ := c
      replace hlen : ahead.length ≤ min (min (k + 1) (bound + 1)) (n + 1) := hlen
      rcases charged_link (D := D) h hf e (show Terminated ahead from hc) (by omega) hl with
        ⟨err, c₁, hchecked, hpos, hplain, hs⟩ | ⟨e', c₁, hchecked, hs, hplain⟩
      · rw [hchecked]
        exact ⟨.error err, 1, c₁, rfl, hpos, hplain _, hs⟩
      · rw [hchecked]
        have hlen' : c₁.ahead.length + 1 ≤ ahead.length := (hs.balanced e' rfl).2
        obtain ⟨r, count, c', hchecked', hcount, hplain', hs'⟩ :=
          ih n (held + 1) e' hs.terminated (by simp only; omega)
        obtain ⟨hpos, hsafe⟩ := (hs.trans hs').shallower
        simp only at hpos
        refine ⟨r, count + 1, c', ?_, by omega, hplain _ _ _ hplain', hsafe.mono (Nat.zero_le _)⟩
        rw [show held + (count + 1) = held + 1 + count by omega]
        exact hchecked'

theorem linked (h : Agrees 1 bound expr expr') {fuel : Nat} (hf : bound + 1 ≤ fuel) :
    Agrees 1 (bound + 1) (Checked.linked D fuel expr) (Expr.linked D expr') := by
  refine bind (primary h (by omega)) fun e c hc hlen => ?_
  obtain ⟨r, count, c', hchecked, hcount, hplain, hs⟩ :=
    links (D := D) h (by omega : bound ≤ fuel) fuel c.ahead.length 0 e hc (by omega)
  have hfueled : Parse.fueled (fun n => Expr.links D expr' n e) c = _ := hplain
  unfold AgreesAt
  rw [hfueled]
  refine ⟨?_, hs⟩
  simp only [hchecked, Checked.released]
  simp [hcount]

theorem power {base exponent : Checked Expr} {base' exponent' : Parse Expr}
    (hb : Agrees 1 bound base base') (hx : Agrees 1 (bound - 2) exponent exponent') :
    Agrees 1 bound (Checked.power D base exponent) (Expr.powerOf D base' exponent') := by
  refine bind hb fun b => eat_bind ?_ (.pure b)
  exact bind (nested D (hx.within (by omega))) fun x => .pure _

theorem unary {base : Checked Expr} (hb : Agrees 1 bound base (Expr.linked D expr')) (k n : Nat) :
    Agrees 1 (min (min k bound) n) (Checked.unary D base k) (Expr.unaryFrom D expr' n) := by
  induction k generalizing n with
  | zero => exact of_zero.within (by omega)
  | succ k ih =>
    cases n with
    | zero => exact of_zero.within (by omega)
    | succ n =>
      intro c hc hlen
      refine AgreesAt.peek_bind hc ?_
      cases hop : UnaryOp.ofKind? (Parse.current c).kind with
      | none => exact power (hb.within (by omega)) ((ih n).within (by omega)) c hc hlen
      | some op =>
        obtain ⟨s, hk, -⟩ := UnaryOp.mem_of_ofKind? hop
        refine AgreesAt.advance_bind hc (by simp [hk]) ?_
        exact bind (nested D ((ih n).within (by omega))) fun e => .pure _

theorem unaryLevel (h : Agrees 1 bound expr expr') {fuel : Nat} (hf : bound + 1 ≤ fuel) :
    Agrees 1 (bound + 1) (Checked.unaryLevel D fuel expr) (Expr.unaryLevel D expr') :=
  fueled fun n => (unary (linked h hf) fuel n).within (by omega)

theorem ternary (h : Agrees 1 bound expr expr') {fuel : Nat} (hf : bound + 1 ≤ fuel) :
    Agrees 1 (bound + 1) (Checked.ternary D fuel expr) (Expr.ternary D expr') := by
  refine bind (runs (unaryLevel h hf) hf Level.all) fun condition => ?_
  refine eat_bind ?_ (.pure condition)
  refine bind (h.within (by omega)) fun thenCase => bind (expect .colon) fun _ => ?_
  exact bind (h.within (by omega)) fun elseCase => .pure _

theorem expression (D k n : Nat) :
    Agrees 1 (min k n) (Checked.expression D k) (Expr.expression D n) := by
  induction k generalizing n with
  | zero => exact of_zero.within (by omega)
  | succ k ih =>
    cases n with
    | zero => exact of_zero.within (by omega)
    | succ n => exact (nested D (ternary (ih n) (by omega))).within (by omega)

theorem entire (D fuel : Nat) : Agrees 1 fuel (Checked.expression D fuel) (Expr.entire D) :=
  fueled fun n => expression D fuel n

theorem source (D fuel : Nat) : Agrees 1 fuel (Checked.source D fuel) (Expr.sourceOf D) := by
  intro c hc hlen
  refine AgreesAt.peek_bind hc ?_
  split
  · exact ⟨rfl, .of_error hc rfl (Nat.le_refl _)⟩
  · refine ((entire D fuel) c hc hlen).bind fun e _ c' hc' _ => AgreesAt.peek_bind hc' ?_
    split
    · exact .pure hc' e
    · exact .reject hc' _

end Agrees

/-! ## Every rule -/

/-- The rules of the grammar; those of one level of operators differ in the levels they read. -/
inductive Rule where
  | expression | ternary
  | operators (levels : List Level)
  | unary | power | linked | primary
  | list (close : Symbol)
  | object

namespace Rule

def Result : Rule → Type
  | list _ => List Expr
  | object => List (String × Expr)
  | _ => Expr

/-- The rule as it is parsed. -/
def parse (D : Nat) : (r : Rule) → Parse r.Result
  | expression => Expr.entire D
  | ternary => Expr.ternary D (Expr.entire D)
  | operators levels => Expr.runs levels (Expr.unaryLevel D (Expr.entire D))
  | unary => Expr.unaryLevel D (Expr.entire D)
  | power => Expr.powerOf D (Expr.linked D (Expr.entire D)) (Expr.unaryLevel D (Expr.entire D))
  | linked => Expr.linked D (Expr.entire D)
  | primary => Expr.primary (Expr.entire D)
  | list close => Expr.list (Expr.entire D) close
  | object => Expr.list (Expr.field (Expr.entire D)) .closeBrace

end Rule

end TemplateBar.Template
