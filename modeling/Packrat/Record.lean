/-!
# Records and the package that reads them

Settings are a record. Its text is read by a package, which is told what the record declares: the
name of each field, what its values are, and the value that stands for one that is not given. How
a package reads is its own affair; here is only what is declared, and what of a package is called.

* `Record.Kind`, `Record.Declaration`: what a record declares.
* `Declaration.Given`, `Declaration.complete`: values of some fields, and of all of them.
* `Record.Package`: a package for a record.
-/

namespace Packrat.Record

/-- What the values of a field are. -/
inductive Kind : Type → Type 1 where
  /-- Either of two truth values. -/
  | flag : Kind Bool
  /-- One of several variants, told apart by their names. -/
  | choice {α : Type} (name : α → String) (name_injective : Function.Injective name) : Kind α

/-- What a record declares of its fields. -/
structure Declaration (Field : Type) where
  name : Field → String
  name_injective : Function.Injective name
  Value : Field → Type
  kind : (field : Field) → Kind (Value field)
  /-- The value of a field that is not given. -/
  default : (field : Field) → Value field

namespace Declaration

variable {Field : Type}

/-- A value for each field. -/
abbrev Values (declaration : Declaration Field) : Type :=
  (field : Field) → declaration.Value field

/-- The values that were given, for some of the fields. -/
abbrev Given (declaration : Declaration Field) : Type :=
  (field : Field) → Option (declaration.Value field)

variable (declaration : Declaration Field)

/-- No field is given. -/
def nothing : declaration.Given := fun _ => none

/-- The values of all fields, with defaults for those not given. -/
def complete (given : declaration.Given) : declaration.Values :=
  fun field => (given field).getD (declaration.default field)

variable {declaration} [DecidableEq Field]

/-- One more field is given. -/
def Given.give (given : declaration.Given) (field : Field) (value : declaration.Value field) :
    declaration.Given :=
  fun other => if h : other = field then some (h ▸ value) else given other

@[simp] theorem Given.give_self (given : declaration.Given) (field : Field)
    (value : declaration.Value field) : given.give field value field = some value := by
  simp [give]

@[simp] theorem Given.give_of_ne (given : declaration.Given) {field other : Field}
    (h : other ≠ field) (value : declaration.Value field) :
    given.give field value other = given other := by
  simp [give, h]

end Declaration

/-- A package that reads a record from JSON, as far as it is called here. What it finds wrong with
a text is its own affair, too; it has something to say of it. -/
structure Package (ε : Type) {Field : Type} (declaration : Declaration Field) where
  fromText : String → Except ε declaration.Values
  fromBytes : List UInt8 → Except ε declaration.Values
  describe : ε → String

end Packrat.Record
