import TemplateBar.Template.Expr.Parse
import TemplateBar.Template.Eval

/-!
# Compiled templates

A template is a source together with the expression it spells. A cache keeps what compiling each
source gave, failures included, so that no source is parsed twice.
-/
namespace TemplateBar

open Template (Expr Limits EvalError Value Scope HostFunction)

/-- A source and the expression that it spells. -/
structure CompiledTemplate where
  source : String
  expr : Expr

namespace CompiledTemplate

def compile (source : String) (maxDepth : Nat) : Except EvalError CompiledTemplate :=
  match Expr.parse source maxDepth with
  | .ok e => .ok ⟨source, e⟩
  | .error err => .error err

def evaluate {F : Type} [DecidableEq F] [HostFunction F] (t : CompiledTemplate) (scope : Scope F)
    (limits : Limits) : Except EvalError (Value F) :=
  t.expr.outcome scope limits

end CompiledTemplate

/-- What compiling each source asked for so far gave. -/
structure TemplateCache where
  maxDepth : Nat
  entries : Dict (Except EvalError CompiledTemplate)

namespace TemplateCache

def empty (maxDepth : Nat) : TemplateCache := ⟨maxDepth, []⟩

def size (c : TemplateCache) : Nat := c.entries.length

/-- The compiled form of a source, from the cache if it was asked for before. -/
def compile (c : TemplateCache) (source : String) :
    Except EvalError CompiledTemplate × TemplateCache :=
  match Dict.get? c.entries source with
  | some r => (r, c)
  | none =>
    let r := CompiledTemplate.compile source c.maxDepth
    (r, { c with entries := Dict.insert c.entries source r })

end TemplateCache
end TemplateBar
