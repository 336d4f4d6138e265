import SteamStream.Library.SortedMap

/-!
# A library for TOML documents

What a program uses of such a library is an `Api`: it builds tables of nodes, prints and parses
them, and takes values out of them with an idea of their type, or a default where there is none.
`Documented` is what the documentation promises of it, as far as a value is there: an entry is found
under the key it was inserted under, and as what it was inserted as. A default that is a string
literal makes the result a pointer to characters, so what is read from it is up to the program.

Nothing is said about how a document is printed. `plain` is an implementation with the entries of a
table in the order of their keys, for any printer and parser (`documented_plain`).
-/

namespace Toml

open Wire

/-! ### The interface -/

/-- The values of type `int`. -/
def IsInt (n : ℤ) : Prop := -2 ^ 31 ≤ n ∧ n < 2 ^ 31

instance (n : ℤ) : Decidable (IsInt n) := inferInstanceAs (Decidable (_ ∧ _))

/-- An `int`. -/
abbrev CInt := { n : ℤ // IsInt n }

/-- The operations on tables and nodes. A node that is looked for and not there is `none`. -/
structure Api (Table Node : Type) where
  /-- `toml::table{}`. -/
  empty : Table
  /-- `toml::table::insert`. -/
  insert : Table → String → Node → Table
  /-- `toml::table::operator[]`. -/
  get : Table → String → Option Node
  /-- The node of a `std::string`. -/
  string : Bytes → Node
  /-- The node of an `int`. -/
  integer : CInt → Node
  /-- The node of a `toml::array`. -/
  array : List Node → Node
  /-- The node of a `toml::table`. -/
  table : Table → Node
  /-- `value<std::string>()`. -/
  stringValue : Node → Option Bytes
  /-- `as_array()`. -/
  asArray : Node → Option (List Node)
  /-- `as_table()`. -/
  asTable : Node → Option Table
  /-- `value_or` with a default of type `std::string`. -/
  valueOr : Option Node → Bytes → Bytes
  /-- `value_or` with a default of type `const char*`, which is the type of the result as well:
  the characters it points to, up to the end of the string they are in. -/
  charsOr : Option Node → Bytes → Bytes
  /-- `value_or` with a default of type `int`. -/
  intOr : Option Node → CInt → CInt
  /-- `operator<<`. -/
  print : Table → Bytes
  /-- The parser; `none` is a parse error. -/
  parse : Bytes → Option Table

/-- What is documented of the operations. -/
structure Api.Documented {Table Node : Type} (toml : Api Table Node) : Prop where
  get_empty : ∀ k, toml.get toml.empty k = none
  /-- An entry that is there stays. -/
  get_insert : ∀ t k k' v, toml.get (toml.insert t k v) k' =
    if k' = k then some ((toml.get t k).getD v) else toml.get t k'
  stringValue_string : ∀ s, toml.stringValue (toml.string s) = some s
  asArray_array : ∀ elements, toml.asArray (toml.array elements) = some elements
  asTable_table : ∀ t, toml.asTable (toml.table t) = some t
  valueOr_string : ∀ s default, toml.valueOr (some (toml.string s)) default = s
  charsOr_string : ∀ s default, toml.charsOr (some (toml.string s)) default = s
  intOr_integer : ∀ n default, toml.intOr (some (toml.integer n)) default = n
  /-- An empty document is an empty table. -/
  parse_nil : toml.parse [] = some toml.empty

/-! ### An implementation -/

/-- A node of a document. -/
inductive Value
  | string (s : Bytes)
  | integer (n : CInt)
  | array (elements : List Value)
  /-- The entries, in the order of their keys. -/
  | table (entries : List (String × Value))

namespace Value

def string? : Value → Option Bytes
  | .string s => some s
  | _ => none

def integer? : Value → Option CInt
  | .integer n => some n
  | _ => none

def array? : Value → Option (List Value)
  | .array elements => some elements
  | _ => none

def table? : Value → Option (List (String × Value))
  | .table entries => some entries
  | _ => none

end Value

/-- Sorted entries, with a printer and a parser. -/
def plain (print : List (String × Value) → Bytes) (parse : Bytes → Option (List (String × Value))) :
    Api (List (String × Value)) Value where
  empty := []
  insert t k v :=
    match t.lookup k with
    | some _ => t
    | none => SortedMap.insertEntry k v t
  get t k := t.lookup k
  string := .string
  integer := .integer
  array := .array
  table := .table
  stringValue := Value.string?
  asArray := Value.array?
  asTable := Value.table?
  valueOr node default := (node.bind Value.string?).getD default
  charsOr node default := (node.bind Value.string?).getD default
  intOr node default := (node.bind Value.integer?).getD default
  print := print
  parse := parse

section Plain

variable {k k' : String} {v : Value}

private theorem lookup_insertEntry (t : List (String × Value)) :
    (SortedMap.insertEntry k v t).lookup k' = if k' = k then some v else t.lookup k' := by
  by_cases hk : k' = k
  · subst hk
    rw [if_pos rfl]
    induction t with
    | nil => exact List.lookup_cons_self
    | cons e t ih =>
      rw [SortedMap.insertEntry]
      split_ifs with hlt hgt
      · exact List.lookup_cons_self
      · have hne : (k' == e.1) = false :=
          beq_eq_false_iff_ne.mpr fun heq => absurd hgt (heq ▸ String.lt_irrefl k')
        rw [List.lookup_cons, hne]
        exact ih
      · obtain rfl : k' = e.1 := String.le_antisymm hgt hlt
        exact List.lookup_cons_self
  · have hne : (k' == k) = false := beq_eq_false_iff_ne.mpr hk
    rw [if_neg hk]
    induction t with
    | nil => rw [SortedMap.insertEntry, List.lookup_cons, hne]
    | cons e t ih =>
      rw [SortedMap.insertEntry]
      split_ifs with hlt hgt
      · rw [List.lookup_cons, hne]
      · rw [List.lookup_cons, List.lookup_cons, ih]
      · obtain rfl : k = e.1 := String.le_antisymm hgt hlt
        rw [List.lookup_cons, List.lookup_cons, hne]

/-- It does what is documented, if its parser takes an empty document for an empty table. -/
theorem documented_plain {print : List (String × Value) → Bytes}
    {parse : Bytes → Option (List (String × Value))} (hnil : parse [] = some []) :
    (plain print parse).Documented where
  get_empty _ := rfl
  get_insert t k k' v := by
    cases hk : t.lookup k with
    | none => simpa [plain, hk] using lookup_insertEntry t
    | some w =>
      simp only [plain, hk, Option.getD_some]
      split_ifs with heq
      · rw [heq, hk]
      · rfl
  stringValue_string _ := rfl
  asArray_array _ := rfl
  asTable_table _ := rfl
  valueOr_string _ _ := rfl
  charsOr_string _ _ := rfl
  intOr_integer _ _ := rfl
  parse_nil := hnil

end Plain

end Toml
