import TemplateBar.Icon.Token

/-!
# Nodes

What an item shows: one node for each token, an icon together with its glyph.
-/
namespace TemplateBar

open Template (Value)

inductive Node where
  | text (content : String)
  | icon (name : String) (size : Option String) (glyph : String)
  deriving DecidableEq, Repr

namespace IconView

/-- An icon that is not registered shows its name. -/
def glyphOrName (v : IconView) (name : String) : String := (v.glyph? name).getD name

def node (v : IconView) : Token → Node
  | .text content => .text content
  | .icon name size => .icon name size (v.glyphOrName name)

def nodes {F : Type} (v : IconView) (value : Value F) : List Node := (v.split value).map v.node

end IconView

namespace Node

/-- Icons as their glyphs. -/
def plain : Node → String
  | text content => content
  | icon _ _ glyph => glyph

def plainText (nodes : List Node) : String := String.join (nodes.map plain)

def toJson : Node → Json
  | text content => .object [("type", .string "text"), ("content", .string content)]
  | icon name size glyph =>
    .object [("type", .string "icon"), ("name", .string name),
      ("size", Json.ofOption .string size), ("glyph", .string glyph)]

def listToJson (nodes : List Node) : Json := .array (nodes.map toJson)

end Node
end TemplateBar
