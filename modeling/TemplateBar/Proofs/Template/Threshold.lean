import TemplateBar.Proofs.Template.Complete

/-!
# Enough levels of nesting

What comes of a source depends on the number of levels allowed only through a threshold: below it a
level is missing, from there on the tree or the syntax error is always the same. Every step of the
parser has such a threshold wherever it starts and however many levels are in use there, and has it
from its parts: two steps one after the other need as many levels as the one that needs more, a step
that takes a level needs one more than what it takes it for.
-/
namespace TemplateBar.Template

open Parse

variable {α β : Type}

/-- What is found where no level is missing: a value in front of the lexemes left, or a syntax error
at an offset. -/
abbrev Finding (α : Type) : Type := Except (Nat × SyntaxCause) (α × List Lexeme)

/-- The finding comes out, with as many levels in use as before; behind an error nothing is read. -/
def Finding.Shows (d : Nat) : Finding α → Except EvalError α × Cursor → Prop
  | .ok (a, rest), r => r = (.ok a, ⟨rest, d⟩)
  | .error (offset, cause), r => r.1 = .error (.syntaxError offset cause)

/-- With enough levels left the finding comes out, else a level was missing. -/
def Meets (D d need : Nat) (found : Finding α) (r : Except EvalError α × Cursor) : Prop :=
  (d + need ≤ D → found.Shows d r) ∧ (D < d + need → r.1 = .error (.depthLimit D))

/-- Wherever a step starts there are a need of levels and a finding that do not depend on the number
of levels allowed nor on those in use. -/
def HasThreshold (p : Nat → Parse α) : Prop :=
  ∀ ls, ∃ (need : Nat) (found : Finding α), ∀ D d, d ≤ D → Meets D d need found (p D ⟨ls, d⟩)

theorem Parse.bind_fst_error {p : Parse α} {f : α → Parse β} {c : Cursor} {e : EvalError}
    (h : (p c).1 = .error e) : ((p >>= f) c).1 = .error e := by
  rw [bind_apply]
  cases hp : p c with
  | mk r c' =>
    rw [hp] at h
    obtain rfl : r = .error e := h
    rfl

theorem Settles.meets_bind {D d n m : Nat} {a : α} {mid : List Lexeme} {found : Finding β}
    {p : Parse α} {f : α → Parse β} {c : Cursor} (h : Settles D d n a mid (p c))
    (h' : Meets D d m found (f a ⟨mid, d⟩)) : Meets D d (max n m) found ((p >>= f) c) := by
  constructor
  · intro hle
    rw [bind_of_ok (h.1 (by omega))]
    exact h'.1 (by omega)
  · intro hlt
    by_cases hn : d + n ≤ D
    · rw [bind_of_ok (h.1 hn)]
      exact h'.2 (by omega)
    · exact bind_fst_error (h.2 (by omega))

theorem TakesLevel.meets {D d n : Nat} {found : Finding α} {p : Parse α} {ls : List Lexeme}
    {r : Except EvalError α × Cursor} (hr : TakesLevel D p ⟨ls, d⟩ r)
    (h : d + 1 ≤ D → Meets D (d + 1) n found (p ⟨ls, d + 1⟩)) : Meets D d (n + 1) found r := by
  by_cases hd : d + 1 ≤ D
  · cases hp : p ⟨ls, d + 1⟩ with
    | mk r' c' =>
      obtain rfl := hr.granted hd r' c' hp
      rw [hp] at h
      refine ⟨fun hle => ?_, fun hlt => (h hd).2 (by omega)⟩
      have hshows := (h hd).1 (by omega)
      cases found with
      | ok found =>
        cases hshows
        rfl
      | error found => exact hshows
  · exact ⟨fun hle => by omega, fun _ => hr.refused (Nat.not_le.mp hd)⟩

namespace HasThreshold

theorem bind {p : Nat → Parse α} {f : Nat → α → Parse β} (hp : HasThreshold p)
    (hf : ∀ a, HasThreshold fun D => f D a) : HasThreshold fun D => p D >>= f D := by
  intro ls
  obtain ⟨n, found, h⟩ := hp ls
  cases found with
  | ok found =>
    obtain ⟨a, mid⟩ := found
    obtain ⟨m, found', h'⟩ := hf a mid
    exact ⟨max n m, found', fun D d hd => Settles.meets_bind (h D d hd) (h' D d hd)⟩
  | error found =>
    exact ⟨n, .error found, fun D d hd => ⟨fun hle => bind_fst_error ((h D d hd).1 hle),
      fun hlt => bind_fst_error ((h D d hd).2 hlt)⟩⟩

/-- A step that takes a level for another one. -/
theorem taking {take : Nat → Parse α → Parse α} {p : Nat → Parse α}
    (htake : ∀ D p c, TakesLevel D p c (take D p c)) (hp : HasThreshold p) :
    HasThreshold fun D => take D (p D) := by
  intro ls
  obtain ⟨n, found, h⟩ := hp ls
  exact ⟨n + 1, found, fun D d hd => (htake D (p D) ⟨ls, d⟩).meets fun hd' => h D (d + 1) hd'⟩

theorem nested {p : Nat → Parse α} (hp : HasThreshold p) :
    HasThreshold fun D => Parse.nested D (p D) :=
  hp.taking fun _ => takesLevel_nested

theorem charged {p : Nat → Parse α} (hp : HasThreshold p) :
    HasThreshold fun D => Parse.charged D (p D) :=
  hp.taking fun _ => takesLevel_charged

theorem fueled {p : Nat → Nat → Parse α} (hp : ∀ n, HasThreshold fun D => p D n) :
    HasThreshold fun D => Parse.fueled (p D) :=
  fun ls => hp ls.length ls

theorem ite {p q : Nat → Parse α} {c : Prop} [Decidable c] (hp : HasThreshold p)
    (hq : HasThreshold q) : HasThreshold fun D => if c then p D else q D := by
  split
  · exact hp
  · exact hq

/-- A step that takes no level. -/
theorem of_shows {p : Parse α} (h : ∀ ls, ∃ found : Finding α, ∀ d, found.Shows d (p ⟨ls, d⟩)) :
    HasThreshold fun _ => p := by
  intro ls
  obtain ⟨found, hfound⟩ := h ls
  exact ⟨0, found, fun D d hd => ⟨fun _ => hfound d, fun hlt => absurd hlt (Nat.not_lt.mpr hd)⟩⟩

theorem pure (a : α) : HasThreshold fun _ => (Pure.pure a : Parse α) :=
  of_shows fun ls => ⟨.ok (a, ls), fun _ => rfl⟩

theorem peek : HasThreshold fun _ => Parse.peek :=
  of_shows fun ls => ⟨.ok ((current ⟨ls, 0⟩).kind, ls), fun _ => rfl⟩

theorem reject (cause : LexemeKind → SyntaxCause) :
    HasThreshold fun _ => (Parse.reject cause : Parse α) :=
  of_shows fun ls => ⟨.error ((current ⟨ls, 0⟩).offset, cause (current ⟨ls, 0⟩).kind), fun _ => rfl⟩

theorem step_eq (ls : List Lexeme) (d : Nat) : step ⟨ls, d⟩ = ⟨(step ⟨ls, 0⟩).ahead, d⟩ := by
  rcases ls with _ | ⟨l, _ | ⟨l', ls⟩⟩ <;> rfl

theorem advance : HasThreshold fun _ => Parse.advance :=
  of_shows fun ls => ⟨.ok ((), (step ⟨ls, 0⟩).ahead), fun d => congrArg (Prod.mk _) (step_eq ls d)⟩

theorem eat (s : Symbol) : HasThreshold fun _ => Parse.eat s := by
  refine of_shows fun ls => ?_
  by_cases hs : (current ⟨ls, 0⟩).kind = .symbol s
  · refine ⟨.ok (true, (step ⟨ls, 0⟩).ahead), fun d => ?_⟩
    exact (if_pos hs).trans (congrArg (Prod.mk _) (step_eq ls d))
  · exact ⟨.ok (false, ls), fun d => if_neg hs⟩

theorem expect (s : Symbol) : HasThreshold fun _ => Parse.expect s := by
  refine of_shows fun ls => ?_
  by_cases hs : (current ⟨ls, 0⟩).kind = .symbol s
  · refine ⟨.ok ((), (step ⟨ls, 0⟩).ahead), fun d => ?_⟩
    exact (if_pos hs).trans (congrArg (Prod.mk _) (step_eq ls d))
  · refine ⟨.error ((current ⟨ls, 0⟩).offset, .expected s (current ⟨ls, 0⟩).kind), fun d => ?_⟩
    exact congrArg Prod.fst (if_neg hs)

end HasThreshold

namespace Expr

open HasThreshold

theorem hasThreshold_operandsAfter {operator? : LexemeKind → Option α} {operand : Nat → Parse Expr}
    (hoperand : HasThreshold operand) (fuel : Nat) :
    HasThreshold fun D => operandsAfter operator? (operand D) fuel := by
  induction fuel with
  | zero => exact HasThreshold.pure _
  | succ fuel ih =>
    refine peek.bind fun k => ?_
    cases operator? k with
    | none => exact HasThreshold.pure _
    | some op =>
      exact advance.bind fun _ => hoperand.bind fun e => ih.bind fun rest => HasThreshold.pure _

theorem hasThreshold_runs {operand : Nat → Parse Expr} (hoperand : HasThreshold operand)
    (ls : List Level) : HasThreshold fun D => runs ls (operand D) := by
  induction ls with
  | nil => exact hoperand
  | cons l ls ih =>
    simp only [runs_cons]
    exact ih.bind fun first => (HasThreshold.fueled fun fuel =>
      hasThreshold_operandsAfter ih fuel).bind fun rest => HasThreshold.pure _

section

variable {item : Nat → Parse α}

theorem hasThreshold_itemsUntil (hitem : HasThreshold item) (close : Symbol) (fuel : Nat) :
    HasThreshold fun D => itemsUntil (item D) close fuel := by
  induction fuel with
  | zero => exact HasThreshold.reject _
  | succ fuel ih =>
    exact hitem.bind fun e => (HasThreshold.eat close).bind fun _ => (HasThreshold.pure _).ite
      ((HasThreshold.expect .comma).bind fun _ => ih.bind fun rest => HasThreshold.pure _)

theorem hasThreshold_list (hitem : HasThreshold item) (close : Symbol) :
    HasThreshold fun D => list (item D) close :=
  (HasThreshold.eat close).bind fun _ => (HasThreshold.pure _).ite
    (HasThreshold.fueled fun fuel => hasThreshold_itemsUntil hitem close fuel)

end

theorem hasThreshold_key : HasThreshold fun _ => key := by
  refine peek.bind fun k => ?_
  cases k with
  | name s | string s => exact advance.bind fun _ => HasThreshold.pure _
  | number | symbol | eof => exact HasThreshold.reject _

theorem hasThreshold_property : HasThreshold fun _ => property := by
  refine peek.bind fun k => ?_
  cases k with
  | name s => exact advance.bind fun _ => HasThreshold.pure _
  | string | number | symbol | eof => exact HasThreshold.reject _

section

variable {expr : Nat → Parse Expr}

theorem hasThreshold_field (hexpr : HasThreshold expr) : HasThreshold fun D => field (expr D) :=
  hasThreshold_key.bind fun _ => (HasThreshold.expect .colon).bind fun _ =>
    hexpr.bind fun _ => HasThreshold.pure _

theorem hasThreshold_primary (hexpr : HasThreshold expr) :
    HasThreshold fun D => primary (expr D) := by
  refine peek.bind fun k => ?_
  cases k with
  | number | string | name => exact advance.bind fun _ => HasThreshold.pure _
  | eof => exact HasThreshold.reject _
  | symbol s => cases s with
    | true | false | null => exact advance.bind fun _ => HasThreshold.pure _
    | openParen =>
      exact advance.bind fun _ => hexpr.bind fun e => (HasThreshold.expect .closeParen).bind
        fun _ => HasThreshold.pure _
    | openBracket =>
      exact advance.bind fun _ => (hasThreshold_list hexpr .closeBracket).bind fun _ =>
        HasThreshold.pure _
    | openBrace =>
      exact advance.bind fun _ => (hasThreshold_list (hasThreshold_field hexpr) .closeBrace).bind
        fun _ => HasThreshold.pure _
    | _ => exact HasThreshold.reject _

theorem hasThreshold_links (hexpr : HasThreshold expr) (fuel : Nat) (e : Expr) :
    HasThreshold fun D => links D (expr D) fuel e := by
  induction fuel generalizing e with
  | zero => exact HasThreshold.pure _
  | succ fuel ih =>
    refine peek.bind fun k => ?_
    split
    · exact (advance.bind fun _ => hasThreshold_property.bind fun p => ih _).charged
    · exact (advance.bind fun _ => hexpr.bind fun i => (HasThreshold.expect .closeBracket).bind
        fun _ => ih _).charged
    · exact (advance.bind fun _ => (hasThreshold_list hexpr .closeParen).bind fun args =>
        ih _).charged
    · exact HasThreshold.pure _

theorem hasThreshold_linked (hexpr : HasThreshold expr) :
    HasThreshold fun D => linked D (expr D) :=
  (hasThreshold_primary hexpr).bind fun e => HasThreshold.fueled fun fuel =>
    hasThreshold_links hexpr fuel e

theorem hasThreshold_unaryFrom (hexpr : HasThreshold expr) (fuel : Nat) :
    HasThreshold fun D => unaryFrom D (expr D) fuel := by
  induction fuel with
  | zero => exact HasThreshold.reject _
  | succ fuel ih =>
    refine peek.bind fun k => ?_
    cases UnaryOp.ofKind? k with
    | some op => exact advance.bind fun _ => ih.nested.bind fun e => HasThreshold.pure _
    | none =>
      exact (hasThreshold_linked hexpr).bind fun base => (HasThreshold.eat .caret).bind fun _ =>
        (ih.nested.bind fun exponent => HasThreshold.pure _).ite (HasThreshold.pure _)

theorem hasThreshold_ternary (hexpr : HasThreshold expr) :
    HasThreshold fun D => ternary D (expr D) := by
  have hunary : HasThreshold fun D => unaryLevel D (expr D) :=
    HasThreshold.fueled fun fuel => hasThreshold_unaryFrom hexpr fuel
  exact (hasThreshold_runs hunary Level.all).bind fun condition =>
    (HasThreshold.eat .question).bind fun _ => (hexpr.bind fun thenCase =>
      (HasThreshold.expect .colon).bind fun _ => hexpr.bind fun elseCase =>
        HasThreshold.pure _).ite (HasThreshold.pure _)

end

theorem hasThreshold_expression (fuel : Nat) : HasThreshold fun D => expression D fuel := by
  induction fuel with
  | zero => exact HasThreshold.reject _
  | succ fuel ih => exact (hasThreshold_ternary ih).nested

theorem ofLexemes_of_error {ls : List Lexeme} {D : Nat} {e : EvalError}
    (hstart : (current ⟨ls, 0⟩).kind ≠ .eof) (h : (entire D ⟨ls, 0⟩).1 = .error e) :
    ofLexemes D ls = .error e := by
  unfold ofLexemes
  rw [if_neg hstart]
  rcases hentire : entire D ⟨ls, 0⟩ with ⟨r, c⟩
  rw [hentire] at h
  obtain rfl : r = .error e := h
  rfl

/-- What a finding for the whole source comes to: nothing may be left of it. -/
def ofFinding : Finding Expr → Except EvalError Expr
  | .ok (e, rest) =>
    if (current ⟨rest, 0⟩).kind = .eof then .ok e
    else .error (.syntaxError (current ⟨rest, 0⟩).offset (.unexpected (current ⟨rest, 0⟩).kind))
  | .error (offset, cause) => .error (.syntaxError offset cause)

theorem ofLexemes_of_shows {ls : List Lexeme} {D : Nat} {found : Finding Expr}
    (hstart : (current ⟨ls, 0⟩).kind ≠ .eof) (h : found.Shows 0 (entire D ⟨ls, 0⟩)) :
    ofLexemes D ls = ofFinding found := by
  rcases found with ⟨offset, cause⟩ | ⟨e, rest⟩
  · exact ofLexemes_of_error hstart h
  · unfold ofLexemes
    rw [if_neg hstart, show entire D ⟨ls, 0⟩ = (.ok e, ⟨rest, 0⟩) from h]
    rfl

theorem syntaxError_of_ofFinding {found : Finding Expr} {err : EvalError}
    (h : ofFinding found = .error err) : ∃ offset cause, err = .syntaxError offset cause := by
  rcases found with ⟨offset, cause⟩ | ⟨e, rest⟩
  · cases h
    exact ⟨_, _, rfl⟩
  · simp only [ofFinding] at h
    split at h
    · cases h
    · cases h
      exact ⟨_, _, rfl⟩

theorem ofLexemes_threshold (ls : List Lexeme) : ∃ (D₀ : Nat) (outcome : Except EvalError Expr),
    (∀ D < D₀, ofLexemes D ls = .error (.depthLimit D)) ∧
    (∀ D, D₀ ≤ D → ofLexemes D ls = outcome) ∧
    ∀ err, outcome = .error err → ∃ offset cause, err = .syntaxError offset cause := by
  by_cases hstart : (current ⟨ls, 0⟩).kind = .eof
  · refine ⟨0, .error (.syntaxError 0 .emptySource), fun D hlt => absurd hlt D.not_lt_zero,
      fun D _ => if_pos hstart, ?_⟩
    rintro _ ⟨⟩
    exact ⟨_, _, rfl⟩
  · obtain ⟨need, found, h⟩ := HasThreshold.fueled hasThreshold_expression ls
    refine ⟨need, ofFinding found, fun D hlt => ?_, fun D hle => ?_,
      fun err => syntaxError_of_ofFinding⟩
    · exact ofLexemes_of_error hstart ((h D 0 D.zero_le).2 (by omega))
    · exact ofLexemes_of_shows hstart ((h D 0 D.zero_le).1 (by omega))

end Expr

theorem syntaxError_of_scanQuoted {quote : Char} {start offset : Nat} {cs : List Char}
    {err : EvalError} (h : scanQuoted quote start offset cs = .error err) :
    ∃ offset' cause, err = .syntaxError offset' cause := by
  fun_induction scanQuoted quote start offset cs with
  | case1 | case3 | case4 =>
    cases h
    exact ⟨_, _, rfl⟩
  | case2 => cases h
  | case5 _ _ _ _ _ _ herr _ ih | case7 _ _ _ _ _ _ herr ih =>
    cases h
    exact ih herr
  | case6 => cases h
  | case8 => cases h

theorem syntaxError_of_scan {offset : Nat} {c : Char} {cs : List Char} {err : EvalError}
    (h : scan offset c cs = .error err) : ∃ offset' cause, err = .syntaxError offset' cause := by
  unfold scan at h
  split at h
  · cases h
  · split at h
    · split at h
      · next hquoted =>
        cases h
        exact syntaxError_of_scanQuoted hquoted
      · cases h
    · split at h
      · cases h
      · unfold scanSymbol at h
        split at h
        · cases h
        · split at h
          · cases h
          · cases h
            exact ⟨_, _, rfl⟩

theorem syntaxError_of_lexemes {offset : Nat} {cs : List Char} {err : EvalError}
    (h : lexemes offset cs = .error err) : ∃ offset' cause, err = .syntaxError offset' cause := by
  fun_induction lexemes offset cs with
  | case1 => cases h
  | case2 _ _ _ _ ih => exact ih h
  | case3 _ _ _ _ _ hscan =>
    cases h
    exact syntaxError_of_scan hscan
  | case4 _ _ _ _ _ _ _ herr ih =>
    cases h
    exact ih herr
  | case5 => cases h

namespace Expr

/-- For each source there is a number of levels: with fewer allowed a level is missing, and with so
many or more the tree or the syntax error is one and the same. -/
theorem parse_threshold (source : String) : ∃ (D₀ : Nat) (outcome : Except EvalError Expr),
    (∀ D < D₀, parse source D = .error (.depthLimit D)) ∧
    (∀ D, D₀ ≤ D → parse source D = outcome) ∧
    ∀ err, outcome = .error err → ∃ offset cause, err = .syntaxError offset cause := by
  unfold parse
  cases ht : tokenize source with
  | error err =>
    refine ⟨0, .error err, fun D hlt => absurd hlt D.not_lt_zero, fun _ _ => rfl, ?_⟩
    rintro _ ⟨⟩
    exact syntaxError_of_lexemes ht
  | ok ls => exact ofLexemes_threshold ls

end Expr
end TemplateBar.Template
