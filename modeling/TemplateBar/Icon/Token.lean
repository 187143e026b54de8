import TemplateBar.Icon.Catalog
import TemplateBar.Decimal.Basic

/-!
# Tokens

A text is cut into icon references and the stretches between them. An icon reference is a
registered name, perhaps with a colon and the digits of a size behind it, that starts and ends at
word boundaries. The search goes from left to right; at one place it prefers the longest name, and
the most digits behind it.
-/
namespace TemplateBar

open Text (isWord isAsciiDigit)
open Template (Value)

inductive Token where
  | text (content : String)
  | icon (name : String) (size : Option String)
  deriving DecidableEq, Repr

namespace Token

/-- The unit of sizes. -/
def unit : List Char := ['p', 'x']

def ofDigits (name : List Char) (digits : Option (List Char)) : Token :=
  icon (String.ofList name) (digits.map fun ds => String.ofList (ds ++ unit))

/-- The reversed characters without any units at the front. -/
def dropUnits : List Char → List Char
  | 'x' :: 'p' :: cs => dropUnits cs
  | cs => cs

/-- The characters that a token was cut from. -/
def literalChars : Token → List Char
  | text content => content.toList
  | icon name none => name.toList
  | icon name (some size) => name.toList ++ ':' :: (dropUnits size.toList.reverse).reverse

def literal (t : Token) : String := String.ofList t.literalChars

def toJson : Token → Json
  | text content => .object [("type", .string "text"), ("content", .string content)]
  | icon name size =>
    .object [("type", .string "icon"), ("name", .string name), ("size", Json.ofOption .string size)]

end Token

namespace IconView

/-- Exactly one side of a place is a word character. -/
def isBoundary (before after : Option Char) : Bool :=
  before.any isWord != after.any isWord

/-- A reference found at the front of a text: its parts and what follows. -/
structure Found where
  name : List Char
  digits : Option (List Char)
  rest : List Char
  deriving DecidableEq, Repr

/-- The text behind a name that it starts with. -/
def afterName : List Char → List Char → Option (List Char)
  | [], cs => some cs
  | n :: ns, c :: cs => if n = c then afterName ns cs else none
  | _ :: _, [] => none

/-- The first `count` or fewer characters as the digits of a size, the most that end at a word
boundary and at least one. -/
def sizeUpTo (cs : List Char) : Nat → Option (List Char × List Char)
  | 0 => none
  | count + 1 =>
    let digits := cs.take (count + 1)
    let rest := cs.drop (count + 1)
    if isBoundary digits.getLast? rest.head? then some (digits, rest) else sizeUpTo cs count

/-- The size behind a name. -/
def sizeAt : List Char → Option (List Char × List Char)
  | ':' :: cs => sizeUpTo cs (cs.takeWhile isAsciiDigit).length
  | _ => none

/-- One name at the front of a text, with a size if there is one, else up to a word boundary. -/
def nameAt (name cs : List Char) : Option Found :=
  match name, afterName name cs with
  | [], _ => none
  | _, none => none
  | _, some rest =>
    match sizeAt rest with
    | some (digits, rest) => some ⟨name, some digits, rest⟩
    | none => if isBoundary name.getLast? rest.head? then some ⟨name, none, rest⟩ else none

/-- The first of the names that makes a reference at a place behind the character `before`. -/
def foundAt (names : List (List Char)) (before : Option Char) (cs : List Char) : Option Found :=
  if isBoundary before cs.head? then names.findSome? fun n => nameAt n cs else none

/-- The text collected so far as a token, unless it is empty. -/
def textToken (collected : List Char) : List Token :=
  if collected.isEmpty then [] else [.text (String.ofList collected.reverse)]

/-- The last character of the found reference. -/
def Found.last (f : Found) : Option Char :=
  match f.digits with
  | some ds => ds.getLast?
  | none => f.name.getLast?

/-- The tokens of a text whose plain characters since the last reference are in `collected`, the
last one first; `fuel` bounds the number of steps. -/
def tokensFrom (names : List (List Char)) :
    Nat → Option Char → List Char → List Char → List Token
  | 0, _, collected, cs => textToken (cs.reverse ++ collected)
  | _, _, collected, [] => textToken collected
  | fuel + 1, before, collected, c :: cs =>
    match foundAt names before (c :: cs) with
    | some f =>
      textToken collected ++ Token.ofDigits f.name f.digits ::
        tokensFrom names fuel f.last [] f.rest
    | none => tokensFrom names fuel (some c) (c :: collected) cs

/-- The longer name first, and of two names of one length the earlier one. -/
def precedes (a b : String) : Bool :=
  b.length < a.length || (a.length == b.length && a ≤ b)

/-- The names in the order in which they are tried. -/
def searchOrder (v : IconView) : List (List Char) :=
  (v.names.mergeSort precedes).map String.toList

/-- The tokens of a text. -/
def splitText (v : IconView) (text : String) : List Token :=
  tokensFrom v.searchOrder text.toList.length none [] text.toList

/-- The tokens of a value's canonical text. -/
def split {F : Type} (v : IconView) (value : Value F) : List Token := v.splitText value.canonical

end IconView
end TemplateBar
