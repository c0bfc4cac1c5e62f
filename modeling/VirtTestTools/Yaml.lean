import VirtTestTools.Text

/-!
# Values of a YAML document

What a safe loader returns for a document: the scalars, lists and mappings that
JSON has as well, and dates, bytes and sets, which it has not. A float is kept as
Python prints it. A mapping is the list of its entries; the loader keeps one entry
for a key, so the first is the only one.

A value is sent as JSON. The encoder goes through it in order and raises at the first
part that it cannot write.
-/

namespace VirtTestTools

/-- A loaded YAML value. -/
inductive Yaml where
  | null
  | bool (value : Bool)
  | int (value : Int)
  | float (printed : Text)
  | str (text : Text)
  | list (items : List Yaml)
  | map (entries : List (Yaml × Yaml))
  /-- A date or a time, as Python prints it. -/
  | date (printed : Text)
  | bytes (content : List UInt8)
  | set (items : List Yaml)

/-- Why a value is not written as JSON: it has a part of a type that JSON has not, or a
float that is not finite. -/
inductive JsonError where
  | typeError
  | valueError (printed : Text)
deriving DecidableEq

namespace Yaml

/-- The truth value of a Python object. -/
def truthy : Yaml → Bool
  | null => false
  | bool value => value
  | int value => decide (value ≠ 0)
  | float printed => decide (printed ≠ "0.0".toList ∧ printed ≠ "-0.0".toList)
  | str text => decide (text ≠ [])
  | list items => !items.isEmpty
  | map entries => !entries.isEmpty
  | date _ => true
  | bytes content => !content.isEmpty
  | set items => !items.isEmpty

/-- A float that JSON can write. -/
def floatError (printed : Text) : Option JsonError :=
  if printed ∈ ["nan".toList, "inf".toList, "-inf".toList] then some (.valueError printed) else none

/-- The key of a mapping is written as a text, if it is one of the scalars of JSON. -/
def keyError : Yaml → Option JsonError
  | null | bool _ | int _ | str _ => none
  | float printed => floatError printed
  | _ => some .typeError

mutual

/-- What `json.dumps` with `allow_nan=False` raises for a value. -/
def jsonError : Yaml → Option JsonError
  | null | bool _ | int _ | str _ => none
  | float printed => floatError printed
  | list items => itemsError items
  | map entries => entriesError entries
  | date _ | bytes _ | set _ => some .typeError

/-- The first error among some items. -/
def itemsError : List Yaml → Option JsonError
  | [] => none
  | item :: rest => (jsonError item).or (itemsError rest)

/-- The first error among the entries of a mapping. -/
def entriesError : List (Yaml × Yaml) → Option JsonError
  | [] => none
  | entry :: rest => (entryError entry).or (entriesError rest)

/-- The error of an entry, its key first. -/
def entryError : Yaml × Yaml → Option JsonError
  | (key, value) => (keyError key).or (jsonError value)

end

/-- The values that Python compares with one another: dates only with dates, times with a
zone only with such times. -/
inductive Order where
  | null
  | number
  | text
  | bytes
  | date
  | naiveTime
  | awareTime
deriving DecidableEq

/-- Where a value stands among the hashable ones; lists, mappings and sets are not. -/
def order : Yaml → Option Order
  | null => some .null
  | bool _ | int _ | float _ => some .number
  | str _ => some .text
  | bytes _ => some .bytes
  | date printed =>
    match printed.dropWhile (· ≠ ' ') with
    | [] => some .date
    | clock => if clock.any (fun character => character = '+' || character = '-')
        then some .awareTime else some .naiveTime
  | list _ | map _ | set _ => none

/-- Whether the given keys can be counted in a dictionary and sorted. -/
def isSorted (keys : List Yaml) : Bool :=
  keys.all (fun key => key.order.isSome && keys.all (fun other => key.order == other.order))

/-- Whether a value is the given text. -/
def isText (expected : Text) : Yaml → Bool
  | str text => decide (text = expected)
  | _ => false

/-- `mapping.get(key)` with a text key. -/
def get (entries : List (Yaml × Yaml)) (key : Text) : Option Yaml :=
  (entries.find? (fun entry => isText key entry.1)).map Prod.snd

/-- A mapping with text keys. -/
def record (entries : List (Text × Yaml)) : Yaml :=
  map (entries.map (fun entry => (str entry.1, entry.2)))

/-- A text or `None`. -/
def ofOption : Option Text → Yaml
  | none => null
  | some text => str text

/-- A null is not true. -/
@[simp] theorem truthy_null : truthy null = false := rfl

/-- A string is true unless it is empty. -/
@[simp] theorem truthy_str (text : Text) : truthy (str text) = decide (text ≠ []) := rfl

/-- A string can be written. -/
@[simp] theorem jsonError_str (text : Text) : jsonError (str text) = none := by rw [jsonError]

/-- An empty mapping has no value. -/
@[simp] theorem get_nil (key : Text) : get [] key = none := rfl

/-- The first entry of a key counts. -/
@[simp] theorem get_cons_str (first key : Text) (value : Yaml) (rest : List (Yaml × Yaml)) :
    get ((str first, value) :: rest) key = if first = key then some value else get rest key := by
  by_cases same : first = key
  · simp [get, isText, same]
  · simp [get, isText, same]

end Yaml

end VirtTestTools
