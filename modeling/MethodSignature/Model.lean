/-
# MethodSignature.Model -- models, and what is asked of a library of models

Parameters and signatures are exchanged as *models*.  A model has named fields, and each of them
says what it holds (`Shape`) and what it holds where nothing is given.  An instance of a model
is a `Value`.

Instances are written as JSON and read again by a library of models, which is not part of
this one.  `Library` lists what is asked of it.  Every function that needs it takes it as an
argument; `Library.lax` is the one that is taken where none is given.
-/
import MethodSignature.Datum.Checked

namespace MethodSignature

set_option autoImplicit false

inductive Value
  | none
  | truth (value : Bool)
  | integer (value : Int)
  | text (text : Text)
  | tuple (items : List Value)
  /-- An instance of the model of that name, its fields in their order. -/
  | model (name : String) (fields : List (String × Value))
  deriving Repr

namespace Value

def ofOption {α : Type} (encode : α → Value) : Option α → Value
  | Option.none => .none
  | some value => encode value

def asText? : Value → Option Text
  | .text held => some held
  | _ => Option.none

def asTruth? : Value → Option Bool
  | .truth held => some held
  | _ => Option.none

def asInteger? : Value → Option Int
  | .integer held => some held
  | _ => Option.none

def asOptional? {α : Type} (decode : Value → Option α) : Value → Option (Option α)
  | .none => some Option.none
  | value => (decode value).map some

def asTuple? {α : Type} (decode : Value → Option α) : Value → Option (List α)
  | .tuple items => items.mapM decode
  | _ => Option.none

end Value

/-- A field of a model, and what it holds where nothing is given. -/
structure Field (Shape : Type) where
  name : String
  shape : Shape
  default : Option Value
  deriving Repr

/-- What a field holds. -/
inductive Shape
  | text
  | truth
  | integer
  /-- Just this word. -/
  | word (word : String)
  | optional (shape : Shape)
  /-- Any number of items of one shape. -/
  | tuple (shape : Shape)
  | model (name : String) (fields : List (Field Shape))
  /-- One of several models, told apart by the word that the field `tag` holds. -/
  | union (tag : String) (variants : List Shape)
  deriving Repr

/-- The word that the field `tag` of a model must hold. -/
def Shape.tagWord? (tag : String) : Shape → Option String
  | .model _ fields =>
      match fields.find? fun field => field.name == tag with
      | some ⟨_, .word tagWord, _⟩ => some tagWord
      | _ => none
  | _ => none

/-- What a model is called with. -/
inductive Argument
  /-- An instance of the model of that name, or of one derived from it. -/
  | instance (model : String)
  /-- A record, which has no tag. -/
  | record
  deriving DecidableEq, Repr

/-- What is asked of a library of models. -/
structure Library where
  /-- The data that a value is dumped as. -/
  dump : Value → Datum
  /-- The value that data stands for, or all that keeps it from having the shape. -/
  validate : Shape → Datum → Checked Value
  /-- Data in JSON. -/
  write : Datum → Text
  /-- The data that a JSON text stands for; none where it is no JSON. -/
  read : Text → Option Datum
  /-- All that keeps an argument from being taken where a shape is asked for. -/
  accept : Shape → Argument → Checked Unit

namespace Library

def dumpJson (library : Library) (value : Value) : Text := library.write (library.dump value)

def validateJson (library : Library) (shape : Shape) (text : Text) : Option (Checked Value) :=
  (library.read text).map (library.validate shape)

end Library

end MethodSignature
