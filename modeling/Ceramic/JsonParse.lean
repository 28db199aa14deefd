import Ceramic.Json

/-! `JSON.parse`, and that it inverts `JSON.stringify` (`parse_stringify`).

The parser reads characters with fuel: every nested value and every further item or member
costs one unit, and each unit consumes at least one character, so the length of the text plus
one is enough. The model's numbers are integers, so a number written with a fraction or an
exponent lies outside the model; `parse` refuses it as it refuses a syntax error. A `\u`
escape of a surrogate that does not pair stands for a lone surrogate, which a `String` cannot
hold, and is refused as well. A repeated key keeps its first place and takes the last value,
as `CreateDataProperty` does; an object whose keys are distinct is read back as it was
written. -/
namespace Ceramic.Json

/-! ## Lexical pieces -/

/-- JSON's whitespace. -/
def isJsonSpace (c : Char) : Bool := c = ' ' || c = '\t' || c = '\n' || c = '\r'

/-- Skip whitespace. -/
def skipSpace : List Char → List Char
  | [] => []
  | c :: cs => if isJsonSpace c then skipSpace cs else c :: cs

/-- The value of a hexadecimal digit, in either case. -/
def hexValue (c : Char) : Option Nat :=
  if '0' ≤ c ∧ c ≤ '9' then some (c.toNat - '0'.toNat)
  else if 'a' ≤ c ∧ c ≤ 'f' then some (c.toNat - 'a'.toNat + 10)
  else if 'A' ≤ c ∧ c ≤ 'F' then some (c.toNat - 'A'.toNat + 10)
  else none

/-- The code unit that four hexadecimal digits write. -/
def hexQuad (a b c d : Char) : Option Nat := do
  pure ((((← hexValue a) * 16 + (← hexValue b)) * 16 + (← hexValue c)) * 16 + (← hexValue d))

/-- Put a character in front of what the rest of a string body reads. -/
def prependChar (c : Char) : Option (List Char × List Char) → Option (List Char × List Char)
  | some (cs, rest) => some (c :: cs, rest)
  | none => none

/-- The character a one-letter escape stands for. -/
def simpleEscape (e : Char) : Option Char :=
  if e = '"' then some '"' else if e = '\\' then some '\\' else if e = '/' then some '/'
  else if e = 'b' then some '\x08' else if e = 'f' then some '\x0c' else if e = 'n' then some '\n'
  else if e = 'r' then some '\r' else if e = 't' then some '\t' else none

mutual
/-- A string's body after its opening quote, up to and without its closing quote: escapes are
read, and raw control characters refused. -/
def parseStringBody : List Char → Option (List Char × List Char)
  | [] => none
  | c :: rest =>
    if c = '"' then some ([], rest)
    else if c = '\\' then parseEscape rest
    else if c.toNat < 0x20 then none
    else prependChar c (parseStringBody rest)

/-- What follows a backslash in a string body. -/
def parseEscape : List Char → Option (List Char × List Char)
  | [] => none
  | e :: rest =>
    if e = 'u' then parseUnicode rest
    else match simpleEscape e with
      | some c => prependChar c (parseStringBody rest)
      | none => none

/-- What follows `\u` in a string body. -/
def parseUnicode : List Char → Option (List Char × List Char)
  | a :: b :: c :: d :: rest =>
    match hexQuad a b c d with
    | none => none
    | some unit =>
      if unit < 0xD800 ∨ 0xE000 ≤ unit then prependChar (Char.ofNat unit) (parseStringBody rest)
      else if 0xDC00 ≤ unit then none
      else parseLowSurrogate unit rest
  | _ => none

/-- After the `\u` escape of a high surrogate, the `\u` escape of its low surrogate. -/
def parseLowSurrogate (high : Nat) : List Char → Option (List Char × List Char)
  | backslash :: u :: e :: f :: g :: h :: rest =>
    if backslash = '\\' ∧ u = 'u' then
      match hexQuad e f g h with
      | some low =>
        if 0xDC00 ≤ low ∧ low < 0xE000 then
          prependChar (Char.ofNat (0x10000 + (high - 0xD800) * 0x400 + (low - 0xDC00)))
            (parseStringBody rest)
        else none
      | none => none
    else none
  | _ => none
end

/-- The decimal digits at the head of a list, and what follows them. -/
def spanDigits : List Char → List Char × List Char
  | [] => ([], [])
  | c :: cs => if c.isDigit then (c :: (spanDigits cs).1, (spanDigits cs).2) else ([], c :: cs)

/-- The number that decimal digits write. -/
def digitsValue (digits : List Char) : Nat :=
  digits.foldl (fun n d => 10 * n + (d.toNat - '0'.toNat)) 0

/-- The sign of a JSON number, and the characters after it. -/
def numberSign : List Char → Bool × List Char
  | '-' :: cs => (true, cs)
  | cs => (false, cs)

/-- A JSON number with an integer part only: an optional `-`, then `0` or digits that do not
start with `0`. -/
def parseNumber (cs : List Char) : Option (Int × List Char) :=
  let (negative, cs) := numberSign cs
  match spanDigits cs with
  | ([], _) => none
  | (digits, rest) =>
    if 1 < digits.length ∧ digits.head? = some '0' then none
    else if rest.head? = some '.' ∨ rest.head? = some 'e' ∨ rest.head? = some 'E' then none
    else some (if negative then -(digitsValue digits : Int) else digitsValue digits, rest)

/-! ## Values -/

/-- `CreateDataProperty` on an object being built: a key already there takes the new value in
its place, a new key goes last. -/
def setField (fields : List (String × JsValue)) (key : String) (value : JsValue) :
    List (String × JsValue) :=
  if fields.any (·.1 = key) then fields.map fun field => if field.1 = key then (key, value) else field
  else fields ++ [(key, value)]

/-- The object that members build, in order. -/
def buildObject (members : List (String × JsValue)) : List (String × JsValue) :=
  members.foldl (fun fields member => setField fields member.1 member.2) []

/-- The rest of a literal after its first letter. -/
def literal (word : List Char) (value : JsValue) (rest : List Char) : Option (JsValue × List Char) :=
  if rest.take word.length = word then some (value, rest.drop word.length) else none

mutual
/-- A value, after optional whitespace. -/
def parseValue : Nat → List Char → Option (JsValue × List Char)
  | 0, _ => none
  | fuel + 1, cs =>
    match skipSpace cs with
    | [] => none
    | c :: rest =>
      if c = 'n' then literal ['u', 'l', 'l'] .null rest
      else if c = 't' then literal ['r', 'u', 'e'] (.bool true) rest
      else if c = 'f' then literal ['a', 'l', 's', 'e'] (.bool false) rest
      else if c = '"' then (parseStringBody rest).map fun read => (.str ⟨read.1⟩, read.2)
      else if c = '[' then
        if (skipSpace rest).head? = some ']' then some (.arr [], (skipSpace rest).tail)
        else match parseValue fuel rest with
          | some (item, rest) =>
            (parseItems fuel rest).map fun read => (.arr (item :: read.1), read.2)
          | none => none
      else if c = '{' then
        if (skipSpace rest).head? = some '}' then some (.obj [], (skipSpace rest).tail)
        else match parseMember fuel rest with
          | some (member, rest) =>
            (parseMembers fuel rest).map fun read => (.obj (buildObject (member :: read.1)), read.2)
          | none => none
      else (parseNumber (c :: rest)).map fun read => (.num read.1, read.2)

/-- The items of an array after the first: `, item` until `]`. -/
def parseItems : Nat → List Char → Option (List JsValue × List Char)
  | 0, _ => none
  | fuel + 1, cs =>
    match skipSpace cs with
    | [] => none
    | c :: rest =>
      if c = ']' then some ([], rest)
      else if c = ',' then
        match parseValue fuel rest with
        | some (item, rest) => (parseItems fuel rest).map fun read => (item :: read.1, read.2)
        | none => none
      else none

/-- A member of an object: a key, `:`, and a value. -/
def parseMember : Nat → List Char → Option ((String × JsValue) × List Char)
  | 0, _ => none
  | fuel + 1, cs =>
    match skipSpace cs with
    | [] => none
    | c :: rest =>
      if c = '"' then
        match parseStringBody rest with
        | some (key, rest) =>
          if (skipSpace rest).head? = some ':' then
            (parseValue fuel (skipSpace rest).tail).map fun read => ((⟨key⟩, read.1), read.2)
          else none
        | none => none
      else none

/-- The members of an object after the first: `, member` until `}`. -/
def parseMembers : Nat → List Char → Option (List (String × JsValue) × List Char)
  | 0, _ => none
  | fuel + 1, cs =>
    match skipSpace cs with
    | [] => none
    | c :: rest =>
      if c = '}' then some ([], rest)
      else if c = ',' then
        match parseMember fuel rest with
        | some (member, rest) => (parseMembers fuel rest).map fun read => (member :: read.1, read.2)
        | none => none
      else none
end

/-- `JSON.parse(text)`: `none` for a `SyntaxError`, and for a text outside the model. -/
def parse (text : String) : Option JsValue :=
  match parseValue (text.length + 1) text.toList with
  | some (value, rest) => if skipSpace rest = [] then some value else none
  | none => none

/-! ## Reading back numbers -/

theorem digitChar_facts : ∀ d, d < 10 →
    (Nat.digitChar d).isDigit = true ∧ (Nat.digitChar d).toNat - '0'.toNat = d ∧
      Nat.digitChar d ≠ '-' := by
  decide

theorem digitsValue_append_singleton (digits : List Char) (c : Char) :
    digitsValue (digits ++ [c]) = 10 * digitsValue digits + (c.toNat - '0'.toNat) := by
  simp [digitsValue, List.foldl_append]

/-- With more fuel than the number, `Nat.toDigitsCore` puts the number's decimal digits in front
of `ds`: at least one, and no leading zero. -/
theorem toDigitsCore_decimal : ∀ (fuel n : Nat) (ds : List Char), n < fuel →
    ∃ digits, Nat.toDigitsCore 10 fuel n ds = digits ++ ds ∧ digits ≠ [] ∧
      (∀ c ∈ digits, ∃ d < 10, c = Nat.digitChar d) ∧ digitsValue digits = n ∧
      (digits.head? = some '0' → digits = ['0'])
  | 0, _, _, h => absurd h (Nat.not_lt_zero _)
  | fuel + 1, n, ds, h => by
    have lt : n % 10 < 10 := Nat.mod_lt _ (by omega)
    have last := digitChar_facts _ lt
    simp only [Nat.toDigitsCore]
    split
    · refine ⟨[Nat.digitChar (n % 10)], rfl, List.cons_ne_nil _ _, ?_, ?_, by simp⟩
      · simpa using ⟨n % 10, lt, rfl⟩
      · simp only [digitsValue, List.foldl_cons, List.foldl_nil, last.2.1]; omega
    · rename_i large
      obtain ⟨digits, eq, nonempty, all, value, lead⟩ :=
        toDigitsCore_decimal fuel (n / 10) (Nat.digitChar (n % 10) :: ds) (by omega)
      refine ⟨digits ++ [Nat.digitChar (n % 10)], by simp [eq], by simp, ?_, ?_, ?_⟩
      · simp only [List.mem_append, List.mem_singleton]
        rintro c (mem | rfl)
        · exact all c mem
        · exact ⟨n % 10, lt, rfl⟩
      · rw [digitsValue_append_singleton, value, last.2.1]; omega
      · intro zero
        rw [List.head?_append_of_ne_nil _ nonempty] at zero
        obtain rfl := lead zero
        simp [digitsValue] at value
        omega

/-- What may follow a value inside `JSON.stringify`'s output: nothing, or `,`, `]` or `}`. -/
def Closes (rest : List Char) : Prop := ∀ c ∈ rest.head?, c = ',' ∨ c = ']' ∨ c = '}'

theorem closes_stop {rest : List Char} (closes : Closes rest) :
    ∀ c ∈ rest.head?, c.isDigit = false ∧ c ≠ '.' ∧ c ≠ 'e' ∧ c ≠ 'E' := by
  intro c mem
  rcases closes c mem with rfl | rfl | rfl <;> decide

theorem spanDigits_append {digits : List Char} (all : ∀ c ∈ digits, ∃ d < 10, c = Nat.digitChar d)
    {rest : List Char} (stop : ∀ c ∈ rest.head?, c.isDigit = false) :
    spanDigits (digits ++ rest) = (digits, rest) := by
  induction digits with
  | nil =>
    cases rest with
    | nil => rfl
    | cons c cs => simp [spanDigits, stop c rfl]
  | cons c digits ih =>
    obtain ⟨d, lt, rfl⟩ := all c (List.mem_cons_self _ _)
    simp [spanDigits, (digitChar_facts d lt).1, ih fun c mem => all c (List.mem_cons_of_mem _ mem)]

theorem numberSign_digitChar {d : Nat} (lt : d < 10) (cs : List Char) :
    numberSign (Nat.digitChar d :: cs) = (false, Nat.digitChar d :: cs) := by
  interval_cases d <;> rfl

theorem toString_digits (m : Nat) : ∃ digits, (toString m).toList = digits ∧ digits ≠ [] ∧
    (∀ c ∈ digits, ∃ d < 10, c = Nat.digitChar d) ∧ digitsValue digits = m ∧
    (digits.head? = some '0' → digits = ['0']) := by
  obtain ⟨digits, eq, rest⟩ := toDigitsCore_decimal (m + 1) m [] (by omega)
  exact ⟨digits, by simpa using eq, rest⟩

/-- After its sign, a number whose digits have no leading zero and stop before anything that
closes is read whole. -/
theorem parseNumber_of_sign {cs digits rest : List Char} {negative : Bool}
    (sign : numberSign cs = (negative, digits ++ rest)) (nonempty : digits ≠ [])
    (all : ∀ c ∈ digits, ∃ d < 10, c = Nat.digitChar d)
    (lead : digits.head? = some '0' → digits = ['0']) (closes : Closes rest) :
    parseNumber cs =
      some (if negative then -(digitsValue digits : Int) else digitsValue digits, rest) := by
  have stop := closes_stop closes
  have fraction : ¬(rest.head? = some '.' ∨ rest.head? = some 'e' ∨ rest.head? = some 'E') := by
    cases rest with
    | nil => simp
    | cons c cs => simp [(stop c rfl).2]
  obtain ⟨c, t, rfl⟩ := List.exists_cons_of_ne_nil nonempty
  unfold parseNumber
  rw [sign]
  dsimp only
  rw [spanDigits_append all fun c mem => (stop c mem).1]
  dsimp only
  rw [if_neg fun ⟨long, zero⟩ => by simp [lead zero] at long, if_neg fraction]

theorem parseNumber_toString (n : Int) {rest : List Char} (closes : Closes rest) :
    parseNumber ((toString n).toList ++ rest) = some (n, rest) := by
  cases n with
  | ofNat m =>
    obtain ⟨digits, shown, nonempty, all, value, lead⟩ := toString_digits m
    obtain ⟨c, t, rfl⟩ := List.exists_cons_of_ne_nil nonempty
    obtain ⟨d, lt, rfl⟩ := all _ (List.mem_cons_self _ _)
    have shown' : (toString (Int.ofNat m)).toList = Nat.digitChar d :: t := shown
    rw [shown', List.cons_append,
      parseNumber_of_sign (numberSign_digitChar lt (t ++ rest)) nonempty all lead closes, value]
    rfl
  | negSucc m =>
    obtain ⟨digits, shown, nonempty, all, value, lead⟩ := toString_digits (m + 1)
    have shown' : (toString (Int.negSucc m)).toList = '-' :: digits := by
      rw [← shown]; rfl
    rw [shown', List.cons_append, parseNumber_of_sign rfl nonempty all lead closes, value]
    rfl

/-! ## Reading back strings -/

theorem hexValue_hexDigit : ∀ d, d < 16 → hexValue (hexDigit d) = some d := by decide

theorem parseStringBody_escapeChar (c : Char) (rest : List Char) :
    parseStringBody (escapeChar c ++ rest) = prependChar c (parseStringBody rest) := by
  unfold escapeChar
  by_cases quote : c = '"'
  · subst quote; rfl
  rw [if_neg quote]
  by_cases backslash : c = '\\'
  · subst backslash; rfl
  rw [if_neg backslash]
  by_cases backspace : c = '\x08'
  · subst backspace; rfl
  rw [if_neg backspace]
  by_cases formfeed : c = '\x0c'
  · subst formfeed; rfl
  rw [if_neg formfeed]
  by_cases newline : c = '\n'
  · subst newline; rfl
  rw [if_neg newline]
  by_cases ret : c = '\r'
  · subst ret; rfl
  rw [if_neg ret]
  by_cases tab : c = '\t'
  · subst tab; rfl
  rw [if_neg tab]
  by_cases control : c.toNat < 0x20
  · have quad : hexQuad '0' '0' (hexDigit (c.toNat / 16)) (hexDigit (c.toNat % 16)) =
        some c.toNat := by
      simp only [hexQuad, hexValue_hexDigit _ (Nat.mod_lt _ (by omega)),
        hexValue_hexDigit (c.toNat / 16) (by omega)]
      simp [hexValue]
      omega
    rw [if_pos control]
    simp only [List.cons_append, List.nil_append]
    rw [parseStringBody, if_neg (by decide), if_pos rfl, parseEscape, if_pos rfl, parseUnicode, quad]
    dsimp only
    rw [if_pos (.inl (by omega)), Char.ofNat_toNat]
  · rw [if_neg control, List.singleton_append, parseStringBody, if_neg quote, if_neg backslash,
      if_neg (by omega)]

theorem parseStringBody_escaped (cs rest : List Char) :
    parseStringBody (cs.flatMap escapeChar ++ '"' :: rest) = some (cs, rest) := by
  induction cs with
  | nil => rfl
  | cons c cs ih => rw [List.flatMap_cons, List.append_assoc, parseStringBody_escapeChar, ih]; rfl

/-! ## One step of the parser -/

theorem parseValue_bracket (fuel : Nat) (cs : List Char) :
    parseValue (fuel + 1) ('[' :: cs) =
      if (skipSpace cs).head? = some ']' then some (.arr [], (skipSpace cs).tail)
      else match parseValue fuel cs with
        | some (item, rest) => (parseItems fuel rest).map fun read => (.arr (item :: read.1), read.2)
        | none => none := by
  rw [parseValue]; rfl

theorem parseValue_brace (fuel : Nat) (cs : List Char) :
    parseValue (fuel + 1) ('{' :: cs) =
      if (skipSpace cs).head? = some '}' then some (.obj [], (skipSpace cs).tail)
      else match parseMember fuel cs with
        | some (member, rest) =>
          (parseMembers fuel rest).map fun read => (.obj (buildObject (member :: read.1)), read.2)
        | none => none := by
  rw [parseValue]; rfl

theorem parseValue_quote (fuel : Nat) (cs : List Char) :
    parseValue (fuel + 1) ('"' :: cs) = (parseStringBody cs).map fun read => (.str ⟨read.1⟩, read.2) := by
  rw [parseValue]; rfl

theorem parseValue_number {fuel : Nat} {c : Char} {cs : List Char}
    (head : c = '-' ∨ ∃ d < 10, c = Nat.digitChar d) :
    parseValue (fuel + 1) (c :: cs) = (parseNumber (c :: cs)).map fun read => (.num read.1, read.2) := by
  rcases head with rfl | ⟨d, lt, rfl⟩
  · rfl
  · interval_cases d <;> rfl

theorem parseItems_comma (fuel : Nat) (cs : List Char) :
    parseItems (fuel + 1) (',' :: cs) = match parseValue fuel cs with
      | some (item, rest) => (parseItems fuel rest).map fun read => (item :: read.1, read.2)
      | none => none := by
  rw [parseItems]; rfl

theorem parseMembers_comma (fuel : Nat) (cs : List Char) :
    parseMembers (fuel + 1) (',' :: cs) = match parseMember fuel cs with
      | some (member, rest) => (parseMembers fuel rest).map fun read => (member :: read.1, read.2)
      | none => none := by
  rw [parseMembers]; rfl

theorem skipSpace_cons {c : Char} (solid : isJsonSpace c = false) (cs : List Char) :
    skipSpace (c :: cs) = c :: cs := by
  simp [skipSpace, solid]

theorem skipSpace_quote (key : String) (cs : List Char) :
    skipSpace (quote key ++ cs) = quote key ++ cs := by
  rw [quote, List.cons_append, skipSpace_cons (by decide)]

theorem parseMember_quote (fuel : Nat) (key : String) (cs : List Char) :
    parseMember (fuel + 1) (quote key ++ ':' :: cs) =
      (parseValue fuel cs).map fun read => ((key, read.1), read.2) := by
  have quoted : quote key ++ ':' :: cs = '"' :: (key.toList.flatMap escapeChar ++ '"' :: ':' :: cs) := by
    simp [quote]
  rw [quoted, parseMember, skipSpace_cons (by decide)]
  dsimp only
  rw [if_pos rfl, parseStringBody_escaped]
  dsimp only
  rw [skipSpace_cons (by decide)]
  rfl

/-! ## Reading back what `stringify` writes -/

/-- `String(n)` starts with a digit or `-`. -/
theorem toString_head (n : Int) :
    ∃ c cs, (toString n).toList = c :: cs ∧ (c = '-' ∨ ∃ d < 10, c = Nat.digitChar d) := by
  cases n with
  | ofNat m =>
    obtain ⟨digits, shown, nonempty, all, -⟩ := toString_digits m
    obtain ⟨c, cs, rfl⟩ := List.exists_cons_of_ne_nil nonempty
    exact ⟨c, cs, shown, .inr (all c (List.mem_cons_self _ _))⟩
  | negSucc m => exact ⟨'-', _, rfl, .inl rfl⟩

theorem digitChar_solid : ∀ d, d < 10 →
    isJsonSpace (Nat.digitChar d) = false ∧ Nat.digitChar d ≠ ']' ∧ Nat.digitChar d ≠ '}' := by
  decide

/-- `JSON.stringify` starts every value with a character that is no whitespace and closes
nothing. -/
theorem render_head (value : JsValue) :
    ∃ c cs, render value = c :: cs ∧ isJsonSpace c = false ∧ c ≠ ']' ∧ c ≠ '}' := by
  cases value with
  | num n =>
    obtain ⟨c, cs, shown, head⟩ := toString_head n
    refine ⟨c, cs, shown, ?_⟩
    rcases head with rfl | ⟨d, lt, rfl⟩
    · decide
    · exact digitChar_solid d lt
  | bool b => cases b <;> exact ⟨_, _, rfl, by decide⟩
  | arr items => cases items <;> exact ⟨_, _, rfl, by decide⟩
  | obj fields => cases fields <;> exact ⟨_, _, rfl, by decide⟩
  | _ => exact ⟨_, _, rfl, by decide⟩

theorem skipSpace_render (value : JsValue) (rest : List Char) :
    skipSpace (render value ++ rest) = render value ++ rest := by
  obtain ⟨c, cs, shown, solid, -⟩ := render_head value
  rw [shown, List.cons_append, skipSpace_cons solid]

mutual
/-- The fuel reading a value takes. -/
def depth : JsValue → Nat
  | .arr (item :: items) => 1 + max (depth item) (depthItems items)
  | .obj ((_, value) :: fields) => 1 + max (1 + depth value) (depthFields fields)
  | _ => 1

/-- The fuel reading the items of an array after the first takes. -/
def depthItems : List JsValue → Nat
  | [] => 1
  | item :: items => 1 + max (depth item) (depthItems items)

/-- The fuel reading the members of an object after the first takes. -/
def depthFields : List (String × JsValue) → Nat
  | [] => 1
  | (_, value) :: fields => 1 + max (1 + depth value) (depthFields fields)
end

mutual
/-- Every object in the value has distinct keys. -/
def WellFormed : JsValue → Prop
  | .arr items => WellFormedItems items
  | .obj fields => (fields.map (·.1)).Nodup ∧ WellFormedFields fields
  | _ => True

def WellFormedItems : List JsValue → Prop
  | [] => True
  | item :: items => WellFormed item ∧ WellFormedItems items

def WellFormedFields : List (String × JsValue) → Prop
  | [] => True
  | (_, value) :: fields => WellFormed value ∧ WellFormedFields fields
end

/-- A member whose key is fresh is appended. -/
theorem setField_fresh {fields : List (String × JsValue)} {key : String}
    (fresh : key ∉ fields.map (·.1)) (value : JsValue) :
    setField fields key value = fields ++ [(key, value)] := by
  have absent : fields.any (·.1 = key) = false := by
    simp only [List.mem_map, not_exists, not_and] at fresh
    simpa using fun other value mem same => fresh (other, value) mem same
  rw [setField, absent, if_neg Bool.false_ne_true]

/-- A key that appears once among the members is not among those before it. -/
theorem fresh_of_nodup {built fields : List (String × JsValue)} {field : String × JsValue}
    (distinct : ((built ++ field :: fields).map (·.1)).Nodup) : field.1 ∉ built.map (·.1) := by
  simp only [List.map_append, List.map_cons, List.nodup_append] at distinct
  exact fun mem => distinct.2.2 mem (List.mem_cons_self _ _)

theorem foldl_setField_distinct (fields : List (String × JsValue)) :
    ∀ built : List (String × JsValue), ((built ++ fields).map (·.1)).Nodup →
      fields.foldl (fun fields member => setField fields member.1 member.2) built = built ++ fields := by
  induction fields with
  | nil => simp
  | cons field fields ih =>
    intro built distinct
    rw [List.foldl_cons, setField_fresh (fresh_of_nodup distinct), ih]
    · simp
    · simpa using distinct

/-- Without repeated keys, building an object keeps its members as read. -/
theorem buildObject_of_nodup {fields : List (String × JsValue)} (nodup : (fields.map (·.1)).Nodup) :
    buildObject fields = fields :=
  foldl_setField_distinct fields [] (by simpa using nodup)

theorem closes_renderItems (items : List JsValue) (rest : List Char) :
    Closes (renderItems items ++ rest) := by
  cases items <;> simp [Closes, renderItems]

theorem closes_renderFields (fields : List (String × JsValue)) (rest : List Char) :
    Closes (renderFields fields ++ rest) := by
  cases fields <;> simp [Closes, renderFields]

theorem depth_pos (value : JsValue) : 0 < depth value := by
  unfold depth; split <;> omega

theorem depthItems_pos (items : List JsValue) : 0 < depthItems items := by
  unfold depthItems; split <;> omega

theorem depthFields_pos (fields : List (String × JsValue)) : 0 < depthFields fields := by
  unfold depthFields; split <;> omega

mutual
/-- `JSON.parse` reads back what `JSON.stringify` writes, given the fuel of the value's depth,
before anything that closes an enclosing array or object. -/
theorem parseValue_render : ∀ (value : JsValue) (fuel : Nat) (rest : List Char),
    WellFormed value → depth value ≤ fuel → Closes rest →
      parseValue fuel (render value ++ rest) = some (value, rest)
  | value, 0, _, _, bound, _ => absurd bound (Nat.not_le_of_lt (depth_pos value))
  | .null, _ + 1, _, _, _, _ => rfl
  | .bool true, _ + 1, _, _, _, _ => rfl
  | .bool false, _ + 1, _, _, _, _ => rfl
  | .num n, _ + 1, rest, _, _, closes => by
    obtain ⟨c, cs, shown, head⟩ := toString_head n
    rw [render, shown, List.cons_append, parseValue_number head, ← List.cons_append, ← shown,
      parseNumber_toString n closes]
    rfl
  | .str s, _ + 1, rest, _, _, _ => by
    rw [render, quote, List.cons_append, List.append_assoc, List.singleton_append, parseValue_quote,
      parseStringBody_escaped]
    rfl
  | .arr [], _ + 1, _, _, _, _ => rfl
  | .arr (item :: items), fuel + 1, rest, formed, bound, closes => by
    obtain ⟨formedItem, formedItems⟩ := formed
    simp only [depth] at bound
    obtain ⟨c, cs, shown, -, notClose, -⟩ := render_head item
    simp only [render, List.cons_append, List.append_assoc]
    rw [parseValue_bracket, skipSpace_render, if_neg (by simp [shown, notClose]),
      parseValue_render item fuel _ formedItem (by omega) (closes_renderItems items rest)]
    simp only [parseItems_renderItems items fuel rest formedItems (by omega) closes, Option.map_some']
  | .obj [], _ + 1, _, _, _, _ => rfl
  | .obj ((key, value) :: fields), fuel + 1, rest, formed, bound, closes => by
    obtain ⟨distinct, formedValue, formedFields⟩ := formed
    simp only [depth] at bound
    obtain ⟨fuel, rfl⟩ : ∃ f, fuel = f + 1 := ⟨fuel - 1, by omega⟩
    simp only [render, List.cons_append, List.append_assoc]
    rw [parseValue_brace, skipSpace_quote, if_neg (by simp [quote]), parseMember_quote,
      parseValue_render value fuel _ formedValue (by omega) (closes_renderFields fields rest)]
    simp only [parseMembers_renderFields fields (fuel + 1) rest formedFields (by omega) closes,
      Option.map_some', buildObject_of_nodup distinct]

theorem parseItems_renderItems : ∀ (items : List JsValue) (fuel : Nat) (rest : List Char),
    WellFormedItems items → depthItems items ≤ fuel → Closes rest →
      parseItems fuel (renderItems items ++ rest) = some (items, rest)
  | items, 0, _, _, bound, _ => absurd bound (Nat.not_le_of_lt (depthItems_pos items))
  | [], _ + 1, _, _, _, _ => rfl
  | item :: items, fuel + 1, rest, formed, bound, closes => by
    obtain ⟨formedItem, formedItems⟩ := formed
    simp only [depthItems] at bound
    simp only [renderItems, List.cons_append, List.append_assoc]
    rw [parseItems_comma,
      parseValue_render item fuel _ formedItem (by omega) (closes_renderItems items rest)]
    simp only [parseItems_renderItems items fuel rest formedItems (by omega) closes, Option.map_some']

theorem parseMembers_renderFields : ∀ (fields : List (String × JsValue)) (fuel : Nat) (rest : List Char),
    WellFormedFields fields → depthFields fields ≤ fuel → Closes rest →
      parseMembers fuel (renderFields fields ++ rest) = some (fields, rest)
  | fields, 0, _, _, bound, _ => absurd bound (Nat.not_le_of_lt (depthFields_pos fields))
  | [], _ + 1, _, _, _, _ => rfl
  | (key, value) :: fields, fuel + 1, rest, formed, bound, closes => by
    obtain ⟨formedValue, formedFields⟩ := formed
    simp only [depthFields] at bound
    obtain ⟨fuel, rfl⟩ : ∃ f, fuel = f + 1 := ⟨fuel - 1, by omega⟩
    simp only [renderFields, List.cons_append, List.append_assoc]
    rw [parseMembers_comma, parseMember_quote,
      parseValue_render value fuel _ formedValue (by omega) (closes_renderFields fields rest)]
    simp only [parseMembers_renderFields fields (fuel + 1) rest formedFields (by omega) closes,
      Option.map_some']
end

theorem one_le_length_render (value : JsValue) : 1 ≤ (render value).length := by
  obtain ⟨c, cs, shown, -⟩ := render_head value
  simp [shown]

mutual
/-- A value is never deeper than its text is long. -/
theorem depth_le_length : ∀ value : JsValue, depth value ≤ (render value).length
  | .arr (item :: items) => by
    have := depth_le_length item
    have := depthItems_le_length items
    simp only [depth, render, List.length_cons, List.length_append]
    omega
  | .obj ((key, value) :: fields) => by
    have := depth_le_length value
    have := depthFields_le_length fields
    simp only [depth, render, List.length_cons, List.length_append]
    omega
  | .null | .bool _ | .num _ | .str _ | .arr [] | .obj [] => one_le_length_render _

theorem depthItems_le_length : ∀ items : List JsValue, depthItems items ≤ (renderItems items).length
  | [] => le_refl 1
  | item :: items => by
    have := depth_le_length item
    have := depthItems_le_length items
    simp only [depthItems, renderItems, List.length_cons, List.length_append]
    omega

theorem depthFields_le_length :
    ∀ fields : List (String × JsValue), depthFields fields ≤ (renderFields fields).length
  | [] => le_refl 1
  | (key, value) :: fields => by
    have := depth_le_length value
    have := depthFields_le_length fields
    simp only [depthFields, renderFields, List.length_cons, List.length_append]
    omega
end

/-- `JSON.parse(JSON.stringify(value))` is `value`, for every value whose objects have distinct
keys. -/
theorem parse_stringify {value : JsValue} (formed : WellFormed value) :
    parse (stringify value) = some value := by
  have read := parseValue_render value ((render value).length + 1) [] formed
    (by have := depth_le_length value; omega) (by simp [Closes])
  rw [List.append_nil] at read
  rw [parse, show (stringify value).toList = render value from rfl,
    show (stringify value).length = (render value).length from rfl, read]
  rfl

example : parse " \x7b\"a\" : [1, -20, \"x\\u0041\"], \"a\": true\x7d " =
    some (.obj [("a", .bool true)]) := by decide

end Ceramic.Json
