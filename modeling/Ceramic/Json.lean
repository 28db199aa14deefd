import Mathlib

/-! JavaScript values as JSON carries them, with `JSON.stringify` and `JSON.parse`.

Both are ECMAScript built-ins, not code of the repository: the daemon's `parseQueryObject`
calls `JSON.parse` on query values that begin with `{`, the SQLite index backend stores
`JSON.stringify` of stream content, and HTTP clients encode nested query objects with
`JSON.stringify`. Numbers are the integer-valued ones; strings are sequences of Unicode
scalar values, so a lone surrogate is not representable. -/
namespace Ceramic.Json

/-! ## Objects as association lists -/

section Properties

variable {K V : Type} [DecidableEq K]

/-- `List.lookup` on a pair, as an `if`. -/
theorem lookup_cons_eq_ite (key probe : K) (value : V) (rest : List (K × V)) :
    ((key, value) :: rest).lookup probe = if probe = key then some value else rest.lookup probe := by
  simp only [List.lookup, beq_iff_eq]
  split <;> simp_all

/-- `delete object[key]`: every property but `key`, in order. -/
def without (properties : List (K × V)) (key : K) : List (K × V) :=
  properties.filter fun property => property.1 ≠ key

@[simp] theorem lookup_without (properties : List (K × V)) (key probe : K) :
    (without properties key).lookup probe = if probe = key then none else properties.lookup probe := by
  induction properties with
  | nil => simp [without]
  | cons property rest ih =>
    obtain ⟨k, v⟩ := property
    by_cases same : k = key
    · subst same
      have dropped : without ((k, v) :: rest) k = without rest k := by simp [without]
      rw [dropped, ih, lookup_cons_eq_ite]
      split_ifs <;> rfl
    · have kept : without ((k, v) :: rest) key = (k, v) :: without rest key := by
        simp [without, same]
      rw [kept, lookup_cons_eq_ite, lookup_cons_eq_ite, ih]
      by_cases here : probe = k
      · subst here; simp [same]
      · simp [here]

end Properties

/-- A JavaScript value that JSON can carry. Objects list their own properties in order. -/
inductive JsValue where
  | null
  | bool (b : Bool)
  | num (n : Int)
  | str (s : String)
  | arr (items : List JsValue)
  | obj (fields : List (String × JsValue))
  deriving Repr, Inhabited

namespace JsValue

mutual
/-- Structural equality test. -/
def beq : JsValue → JsValue → Bool
  | .null, b => match b with | .null => true | _ => false
  | .bool a, b => match b with | .bool b => a == b | _ => false
  | .num a, b => match b with | .num b => a == b | _ => false
  | .str a, b => match b with | .str b => a == b | _ => false
  | .arr as, b => match b with | .arr bs => beqItems as bs | _ => false
  | .obj as, b => match b with | .obj bs => beqFields as bs | _ => false

def beqItems : List JsValue → List JsValue → Bool
  | [], bs => bs.isEmpty
  | a :: as, bs => match bs with | b :: bs => beq a b && beqItems as bs | [] => false

def beqFields : List (String × JsValue) → List (String × JsValue) → Bool
  | [], bs => bs.isEmpty
  | (k, a) :: as, bs => match bs with
    | (l, b) :: bs => k == l && beq a b && beqFields as bs
    | [] => false
end

mutual
theorem beq_iff : ∀ a b : JsValue, beq a b = true ↔ a = b
  | .null, b | .bool _, b | .num _, b | .str _, b => by cases b <;> simp [beq]
  | .arr as, b => by cases b <;> simp [beq, beqItems_iff as]
  | .obj as, b => by cases b <;> simp [beq, beqFields_iff as]

theorem beqItems_iff : ∀ as bs : List JsValue, beqItems as bs = true ↔ as = bs
  | [], bs => by cases bs <;> simp [beqItems]
  | a :: as, bs => by cases bs <;> simp [beqItems, beq_iff a, beqItems_iff as]

theorem beqFields_iff : ∀ as bs : List (String × JsValue), beqFields as bs = true ↔ as = bs
  | [], bs => by cases bs <;> simp [beqFields]
  | (k, a) :: as, bs => by
    cases bs with
    | nil => simp [beqFields]
    | cons b bs => simp [beqFields, beq_iff a, beqFields_iff as, and_assoc, Prod.ext_iff]
end

instance : DecidableEq JsValue := fun a b => decidable_of_iff _ (beq_iff a b)

end JsValue

/-! ## `JSON.stringify` -/

def hexDigits : List Char := "0123456789abcdef".toList

/-- One lowercase hexadecimal digit. -/
def hexDigit (n : Nat) : Char := hexDigits.getD n '0'

/-- `QuoteJSONString` for one code point: the two-character escapes, `\u00XX` for the other
control characters, and the character itself otherwise. -/
def escapeChar (c : Char) : List Char :=
  if c = '"' then ['\\', '"']
  else if c = '\\' then ['\\', '\\']
  else if c = '\x08' then ['\\', 'b']
  else if c = '\x0c' then ['\\', 'f']
  else if c = '\n' then ['\\', 'n']
  else if c = '\r' then ['\\', 'r']
  else if c = '\t' then ['\\', 't']
  else if c.toNat < 0x20 then ['\\', 'u', '0', '0', hexDigit (c.toNat / 16), hexDigit (c.toNat % 16)]
  else [c]

/-- `QuoteJSONString`. -/
def quote (s : String) : List Char := '"' :: (s.toList.flatMap escapeChar ++ ['"'])

mutual
/-- `SerializeJSONProperty` on a value, with no indentation. -/
def render : JsValue → List Char
  | .null => "null".toList
  | .bool true => "true".toList
  | .bool false => "false".toList
  | .num n => (toString n).toList
  | .str s => quote s
  | .arr [] => ['[', ']']
  | .arr (item :: items) => '[' :: render item ++ renderItems items
  | .obj [] => ['{', '}']
  | .obj ((key, value) :: fields) => '{' :: quote key ++ ':' :: render value ++ renderFields fields

/-- The items after the first, each after a comma, and the closing bracket. -/
def renderItems : List JsValue → List Char
  | [] => [']']
  | item :: items => ',' :: render item ++ renderItems items

/-- The members after the first, each after a comma, and the closing brace. -/
def renderFields : List (String × JsValue) → List Char
  | [] => ['}']
  | (key, value) :: fields => ',' :: quote key ++ ':' :: render value ++ renderFields fields
end

/-- `JSON.stringify(value)`. -/
def stringify (value : JsValue) : String := ⟨render value⟩

example : stringify (.obj [("a", .num (-1)), ("b", .arr [.null, .str "x\"y"])]) =
    "\x7b\"a\":-1,\"b\":[null,\"x\\\"y\"]\x7d" := by decide

end Ceramic.Json
