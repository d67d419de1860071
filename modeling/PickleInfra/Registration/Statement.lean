import PickleInfra.Python.Ascii
import PickleInfra.Python.Base64
import PickleInfra.Python.Utf8
import PickleInfra.Registration.Plain
import PickleInfra.Sql.Template

/-!
# `Registration.Statement` — texts of SQL with values in them

`literal` and `json_literal` of `lib/node_registration.py`, and the shape that every `apply_sql` has: statements, a block
between two tags, and a query of the result. The parts of a text are those of its f-string.
-/

namespace PickleInfra
namespace Registration

open Python JsonText

/-! ## Values in a text -/

section Literals

variable (T : FloatText)

/-- The base64 that `json_literal` writes. -/
def encoded (value : Json) : List Char := Base64.encode (Utf8.encode (dumpsAscii T value))

/-- `literal` -/
def literal (value : String) : List Char := Sql.quoted value.toList

/-- `json_literal` -/
def jsonLiteral (value : Json) : List Char :=
  if value.isNull then "NULL::jsonb".toList
  else "convert_from(decode(".toList ++ literal (String.ofList (encoded T value)) ++ ", 'base64'), 'UTF8')::jsonb".toList

/-- `convert_from(decode(text, 'base64'), 'UTF8')::jsonb` -/
def decoded (text : List Char) : Option Json := do
  let bytes ← Base64.decode text
  let s ← String.fromUTF8? bytes.toByteArray
  loads T s.toList

variable {T}

/-- **A JSON value is what its base64 is decoded to.** -/
theorem decoded_encoded {value : Json} (h : Valid T value) : decoded T (encoded T value) = some value := by
  have htext : String.fromUTF8? (Utf8.encode (dumpsAscii T value)).toByteArray =
      some (String.ofList (dumpsAscii T value)) := Utf8.fromUTF8?_eq.mpr rfl
  unfold decoded encoded
  rw [Base64.decode_encode]
  show (String.fromUTF8? (Utf8.encode (dumpsAscii T value)).toByteArray).bind (fun s => loads T s.toList) = some value
  rw [htext, Option.bind_some, String.toList_ofList]
  exact loads_dumpsAscii h

end Literals

/-- A value between the braces of an f-string. -/
inductive Hole where
  | literal (value : String)
  | json (value : Json)
  /-- A value without a function around it. -/
  | raw (value : Json)

/-- A part of an f-string. -/
inductive Part where
  | text (s : String)
  | hole (h : Hole)

section Texts

variable (T : FloatText) (repr : Json → String)

/-- `str(value)`, of which `repr` is that of a value that is neither a text nor an integer. -/
def str : Json → String
  | .str s => s
  | .int n => toString n
  | v      => repr v

def Hole.text : Hole → List Char
  | .literal value => Registration.literal value
  | .json value    => jsonLiteral T value
  | .raw value     => (str repr value).toList

def Part.chars : Part → List Char
  | .text s => s.toList
  | .hole h => h.text T repr

end Texts

/-- What an `apply_sql` returns: a block between its tags, with texts before and after it. -/
structure Script where
  before : String
  tag : String
  body : List Part
  after : List Part

section Script

variable (T : FloatText) (repr : Json → String)

def Script.bodyText (s : Script) : List Char := s.body.flatMap (Part.chars T repr)

/-- The text. -/
def Script.text (s : Script) : List Char :=
  s.before.toList ++ Sql.dollarQuoted s.tag.toList (s.bodyText T repr) ++ s.after.flatMap (Part.chars T repr)

end Script

/-! ## Pieces -/

/-- A number that stands for itself. -/
def IsNumber (value : Json) : Prop := ∃ n : Nat, value = .int n

section Pieces

variable (T : FloatText) (repr : Json → String)

/-- A value as the lexer meets it. -/
def Hole.pieces : Hole → List Sql.Piece
  | .literal value       => [.quoted value.toList]
  | .json value          =>
    if value.isNull then [.text "NULL::jsonb".toList]
    else [.text "convert_from(decode(".toList, .quoted (encoded T value), .text ", 'base64'), 'UTF8')::jsonb".toList]
  | .raw (.int (.ofNat n)) => [.digits (toString n).toList]
  | .raw value           => [.text (str repr value).toList]

def Part.pieces : Part → List Sql.Piece
  | .text s => [.text s.toList]
  | .hole h => h.pieces T repr

theorem render_pieces (p : Part) : Sql.render (p.pieces T repr) = p.chars T repr := by
  cases p with
  | text s => exact List.append_nil _
  | hole h =>
      cases h with
      | literal value => exact List.append_nil _
      | json value =>
          show Sql.render (Hole.pieces T repr (.json value)) = jsonLiteral T value
          unfold Hole.pieces jsonLiteral
          dsimp only
          split
          · exact List.append_nil _
          · simp [Sql.render, Sql.Piece.render, literal]
      | raw value =>
          cases value with
          | int n =>
              cases n with
              | ofNat n   => exact List.append_nil _
              | negSucc n => exact List.append_nil _
          | null | bool | float | str | list | dict => exact List.append_nil _

theorem render_flatMap (ps : List Part) :
    Sql.render (ps.flatMap (Part.pieces T repr)) = ps.flatMap (Part.chars T repr) := by
  induction ps with
  | nil => rfl
  | cons p ps ih =>
      have happend : Sql.render (p.pieces T repr ++ ps.flatMap (Part.pieces T repr)) =
          Sql.render (p.pieces T repr) ++ Sql.render (ps.flatMap (Part.pieces T repr)) := List.flatMap_append
      rw [List.flatMap_cons, List.flatMap_cons, happend, render_pieces, ih]

end Pieces

end Registration
end PickleInfra
