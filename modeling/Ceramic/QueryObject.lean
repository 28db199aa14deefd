import Ceramic.JsonParse

/-! `parseQueryObject` of `ceramic-daemon.ts`, which types the values of an HTTP query for the
`healthcheck`, `state`, `collection` and `collection/count` GET handlers, and what it reads back from a query
written by typing each value back into a string.

`parseInt` is `Number.parseInt` with no radix, as ECMAScript defines it, on the model's integers
(see `MODEL_MAP.json` for `-0` and for rounding to a double). The loop assigns with
`typedOpts[key] = ...`, and an assignment to `__proto__` sets the prototype and adds no own
property (`assignProperty`). The recursion goes through `JSON.parse`, so the model takes fuel:
one unit for each object text it reads. The deprecated `stateOld` handler then applies
`upconvertLegacySyncOption` to the typed query, and `state` does not.

On any query the loop throws exactly when typing one of its values throws, and otherwise keeps
each key but `__proto__` once, with the typed value of its last entry
(`parseQueryObject_types_each_key`). The `healthcheck` handler reads `checkIpfs` from the typed
query and probes IPFS up to `HEALTHCHECK_RETRIES` times (`healthcheck_answers`). -/
namespace Ceramic.Json

/-! ## `parseInt` -/

/-- `WhiteSpace` and `LineTerminator`, which `TrimString` removes: tab, vertical tab, form feed,
space, no-break space, the byte-order mark, the other `Zs` spaces, and the line ends. -/
def isJsSpace (c : Char) : Bool :=
  c = '\t' || c = '\x0b' || c = '\x0c' || c = ' ' || c = '\xa0' || c = '\ufeff' ||
    c = '\n' || c = '\r' || c = '\u2028' || c = '\u2029' || c = '\u1680' ||
    ('\u2000' ≤ c && c ≤ '\u200a') || c = '\u202f' || c = '\u205f' || c = '\u3000'

/-- The value of a digit in a radix up to 36: `0`-`9`, then letters in either case. -/
def radixDigit (radix : Nat) (c : Char) : Option Nat :=
  let value :=
    if '0' ≤ c ∧ c ≤ '9' then some (c.toNat - '0'.toNat)
    else if 'a' ≤ c ∧ c ≤ 'z' then some (c.toNat - 'a'.toNat + 10)
    else if 'A' ≤ c ∧ c ≤ 'Z' then some (c.toNat - 'A'.toNat + 10)
    else none
  value.filter (· < radix)

/-- The values of the longest prefix of radix digits. -/
def spanRadixDigits (radix : Nat) : List Char → List Nat
  | [] => []
  | c :: cs =>
    match radixDigit radix c with
    | some d => d :: spanRadixDigits radix cs
    | none => []

/-- The number that digits write in a radix. -/
def radixValue (radix : Nat) (digits : List Nat) : Nat :=
  digits.foldl (fun n d => radix * n + d) 0

/-- The sign of `parseInt`'s input, and the characters after it. -/
def intSign : List Char → Bool × List Char
  | [] => (false, [])
  | c :: cs => if c = '-' then (true, cs) else if c = '+' then (false, cs) else (false, c :: cs)

/-- With no radix given, a `0x` or `0X` prefix selects radix 16, and radix 10 is used
otherwise. -/
def intRadix : List Char → Nat × List Char
  | c :: d :: cs => if c = '0' ∧ (d = 'x' ∨ d = 'X') then (16, cs) else (10, c :: d :: cs)
  | cs => (10, cs)

/-- The number after the sign: the radix prefix, then the longest digit prefix, and `none` for
`NaN` when there is no digit. -/
def intDigits (negative : Bool) (cs : List Char) : Option Int :=
  let (radix, cs) := intRadix cs
  match spanRadixDigits radix cs with
  | [] => none
  | digits => some (if negative then -(radixValue radix digits : Int) else radixValue radix digits)

/-- `parseInt(string)`, after leading whitespace and a sign. -/
def parseInt (string : String) : Option Int :=
  let (negative, cs) := intSign (string.toList.dropWhile isJsSpace)
  intDigits negative cs

/-! ## `parseQueryObject` -/

/-- `typedOpts[key] = value` on an ordinary object: `__proto__` goes to the prototype setter,
which adds no own property, and any other key is set or appended. -/
def assignProperty (typedOpts : List (String × JsValue)) (key : String) (value : JsValue) :
    List (String × JsValue) :=
  if key = "__proto__" then typedOpts else setField typedOpts key value

/-- The typed form of one value: a text that starts with `{` is parsed and typed in turn
(`recurse`); `true` and `false` become booleans; a text from which `parseInt` reads a number
becomes that number; anything else is kept. `none` is a thrown `SyntaxError`. -/
def typeValue (recurse : List (String × JsValue) → Option (List (String × JsValue))) :
    JsValue → Option JsValue
  | .str value =>
    if value.toList.head? = some '{' then
      match parse value with
      | some (.obj fields) => (recurse fields).map .obj
      | _ => none
    else if value = "true" then some (.bool true)
    else if value = "false" then some (.bool false)
    else
      match parseInt value with
      | some n => some (.num n)
      | none => some (.str value)
  | value => some value

/-- One turn of the loop over `Object.entries(opts)`. -/
def readEntry (recurse : List (String × JsValue) → Option (List (String × JsValue)))
    (typedOpts : List (String × JsValue)) (entry : String × JsValue) :
    Option (List (String × JsValue)) :=
  (typeValue recurse entry.2).map (assignProperty typedOpts entry.1)

/-- `parseQueryObject(opts)`, with one unit of fuel for each level of object text. -/
def parseQueryObject : Nat → List (String × JsValue) → Option (List (String × JsValue))
  | 0, _ => none
  | fuel + 1, opts => opts.foldlM (readEntry (parseQueryObject fuel)) []

/-! ## Reading numbers back -/

theorem digit_radixDigit : ∀ d, d < 10 →
    radixDigit 10 (Nat.digitChar d) = some d ∧ isJsSpace (Nat.digitChar d) = false ∧
      Nat.digitChar d ≠ '-' ∧ Nat.digitChar d ≠ '+' ∧ Nat.digitChar d ≠ '{' := by
  decide

theorem spanRadixDigits_decimal {digits : List Char}
    (all : ∀ c ∈ digits, ∃ d < 10, c = Nat.digitChar d) :
    spanRadixDigits 10 digits = digits.map (·.toNat - '0'.toNat) := by
  induction digits with
  | nil => rfl
  | cons c cs ih =>
    obtain ⟨d, lt, rfl⟩ := all c (List.mem_cons_self _ _)
    rw [spanRadixDigits, (digit_radixDigit d lt).1, List.map_cons, (digitChar_facts d lt).2.1,
      ih fun c mem => all c (List.mem_cons_of_mem _ mem)]

theorem radixValue_decimal (digits : List Char) :
    radixValue 10 (digits.map (·.toNat - '0'.toNat)) = digitsValue digits := by
  rw [radixValue, List.foldl_map, digitsValue]

/-- Digits that do not start with `0`, or the single `0`, carry no `0x` prefix. -/
theorem intRadix_decimal {digits : List Char} (lead : digits.head? = some '0' → digits = ['0']) :
    intRadix digits = (10, digits) := by
  match digits, lead with
  | c :: d :: cs, lead =>
    rw [intRadix, if_neg]
    rintro ⟨rfl, -⟩
    simpa using lead rfl
  | [], _ | [_], _ => rfl

theorem intDigits_decimal (negative : Bool) {digits : List Char} (nonempty : digits ≠ [])
    (all : ∀ c ∈ digits, ∃ d < 10, c = Nat.digitChar d) (lead : digits.head? = some '0' → digits = ['0']) :
    intDigits negative digits =
      some (if negative then -(digitsValue digits : Int) else digitsValue digits) := by
  obtain ⟨c, cs, rfl⟩ := List.exists_cons_of_ne_nil nonempty
  rw [intDigits, intRadix_decimal lead]
  dsimp only
  rw [spanRadixDigits_decimal all, ← radixValue_decimal]
  rfl

/-- `parseInt(String(n))` is `n`. -/
theorem parseInt_toString (n : Int) : parseInt (toString n) = some n := by
  cases n with
  | ofNat m =>
    obtain ⟨digits, shown, nonempty, all, value, lead⟩ := toString_digits m
    obtain ⟨c, cs, rfl⟩ := List.exists_cons_of_ne_nil nonempty
    obtain ⟨d, lt, rfl⟩ := all _ (List.mem_cons_self _ _)
    have facts := digit_radixDigit d lt
    have shown' : (toString (Int.ofNat m)).toList = Nat.digitChar d :: cs := shown
    rw [parseInt, shown', List.dropWhile_cons_of_neg (by simp [facts.2.1]), intSign,
      if_neg facts.2.2.1, if_neg facts.2.2.2.1]
    dsimp only
    rw [intDigits_decimal false nonempty all lead, value]
    rfl
  | negSucc m =>
    obtain ⟨digits, shown, nonempty, all, value, lead⟩ := toString_digits (m + 1)
    have shown' : (toString (Int.negSucc m)).toList = '-' :: digits := by
      rw [← shown]; rfl
    rw [parseInt, shown', List.dropWhile_cons_of_neg (by decide), intSign, if_pos rfl]
    dsimp only
    rw [intDigits_decimal true nonempty all lead, value]
    rfl

/-- A string that is `String(m)` for some `m` is `String` of what `parseInt` reads from it. -/
theorem ne_toString_of_parseInt {s : String} {m : Int} (read : parseInt s = some m)
    (other : s ≠ toString m) (n : Int) : s ≠ toString n := by
  rintro rfl
  rw [parseInt_toString, Option.some_inj] at read
  exact other (read ▸ rfl)

/-! ## Object texts -/

theorem parseValue_brace_obj {fuel : Nat} {cs rest : List Char} {value : JsValue}
    (read : parseValue (fuel + 1) ('{' :: cs) = some (value, rest)) : ∃ fields, value = .obj fields := by
  rw [parseValue_brace] at read
  split_ifs at read
  · cases read; exact ⟨_, rfl⟩
  · split at read
    · obtain ⟨_, -, same⟩ := Option.map_eq_some'.mp read
      cases same; exact ⟨_, rfl⟩
    · cases read

/-- `JSON.parse` of a text that starts with `{` is an object, so `typeValue` fails on such a
text only where `JSON.parse` throws. -/
theorem parse_brace_obj {text : String} {value : JsValue} (read : parse text = some value)
    (brace : text.toList.head? = some '{') : ∃ fields, value = .obj fields := by
  obtain ⟨cs, shown⟩ := List.head?_eq_some_iff.mp brace
  rw [parse, shown] at read
  split at read
  · split_ifs at read
    cases read
    exact parseValue_brace_obj ‹_›
  · cases read

/-! ## The loop -/

theorem assignProperty_fresh {typedOpts : List (String × JsValue)} {key : String}
    (notProto : key ≠ "__proto__") (fresh : key ∉ typedOpts.map (·.1)) (value : JsValue) :
    assignProperty typedOpts key value = typedOpts ++ [(key, value)] := by
  rw [assignProperty, if_neg notProto, setField_fresh fresh]

/-- When the keys are distinct and none is `__proto__`, the loop types each entry in place. -/
theorem parseQueryObject_forall₂ {fuel : Nat} {opts typed : List (String × JsValue)}
    (each : List.Forall₂ (fun entry field =>
      entry.1 = field.1 ∧ typeValue (parseQueryObject fuel) entry.2 = some field.2) opts typed)
    (distinct : (typed.map (·.1)).Nodup) (noProto : ∀ field ∈ typed, field.1 ≠ "__proto__") :
    parseQueryObject (fuel + 1) opts = some typed := by
  suffices loop : ∀ built : List (String × JsValue), ((built ++ typed).map (·.1)).Nodup →
      opts.foldlM (readEntry (parseQueryObject fuel)) built = some (built ++ typed) from
    loop [] distinct
  clear distinct
  induction each with
  | nil => intro built _; rw [List.append_nil]; rfl
  | @cons entry field opts typed same _ ih =>
    intro built unique
    have entryValue : readEntry (parseQueryObject fuel) built entry = some (built ++ [field]) := by
      rw [readEntry, same.2, Option.map_some', same.1,
        assignProperty_fresh (noProto field (List.mem_cons_self _ _)) (fresh_of_nodup unique)]
    rw [List.foldlM_cons, entryValue]
    simpa using ih (fun field mem => noProto field (List.mem_cons_of_mem _ mem)) (built ++ [field])
      (by simpa using unique)

/-! ## Typing back what a typed query writes -/

/-- A string that `typeValue` keeps as it is: no object text, not `true` or `false`, and
nothing `parseInt` reads a number from. -/
def KeptString (s : String) : Prop :=
  s.toList.head? ≠ some '{' ∧ s ≠ "true" ∧ s ≠ "false" ∧ parseInt s = none

instance : DecidablePred KeptString := fun _ => inferInstanceAs (Decidable (_ ∧ _ ∧ _ ∧ _))

theorem typeValue_kept (recurse : List (String × JsValue) → Option (List (String × JsValue)))
    {value : JsValue} (kept : ∀ s, value = .str s → KeptString s) : typeValue recurse value = some value := by
  cases value with
  | str s =>
    obtain ⟨notBrace, notTrue, notFalse, noNumber⟩ := kept s rfl
    rw [typeValue, if_neg notBrace, if_neg notTrue, if_neg notFalse, noNumber]
  | _ => rfl

/-- The members of a nested object that a nested `parseQueryObject` keeps: distinct keys that
are not `__proto__`, with every string value kept. -/
def KeptFields (fields : List (String × JsValue)) : Prop :=
  WellFormed (.obj fields) ∧
    ∀ field ∈ fields, field.1 ≠ "__proto__" ∧ ∀ s, field.2 = .str s → KeptString s

/-- A value of a typed query object that the daemon reads back as it was. Null and arrays are
no typed query values. -/
def Restorable : JsValue → Prop
  | .bool _ | .num _ => True
  | .str s => KeptString s
  | .obj fields => KeptFields fields
  | .null | .arr _ => False

/-- The query-string value of a typed value: `String(v)` for booleans and numbers, strings as
they are, and `JSON.stringify(v)` for nested objects. -/
def encodeValue : JsValue → JsValue
  | .bool b => .str (toString b)
  | .num n => .str (toString n)
  | .obj fields => .str (stringify (.obj fields))
  | value => value

/-- The HTTP query of a typed query object. -/
def encodeQuery (q : List (String × JsValue)) : List (String × JsValue) :=
  q.map fun field => (field.1, encodeValue field.2)

theorem typeValue_toString (recurse : List (String × JsValue) → Option (List (String × JsValue)))
    (n : Int) : typeValue recurse (.str (toString n)) = some (.num n) := by
  obtain ⟨c, cs, shown, head⟩ := toString_head n
  have notBrace : (toString n).toList.head? ≠ some '{' := by
    rw [shown]
    rcases head with rfl | ⟨d, lt, rfl⟩
    · simp
    · simpa using (digit_radixDigit d lt).2.2.2.2
  have read := parseInt_toString n
  have notWord : ∀ word, parseInt word = none → toString n ≠ word := fun word none same => by
    rw [same, none] at read; cases read
  rw [typeValue, if_neg notBrace, if_neg (notWord "true" rfl), if_neg (notWord "false" rfl), read]

theorem typeValue_encodeValue (fuel : Nat) {value : JsValue} (restorable : Restorable value) :
    typeValue (parseQueryObject (fuel + 1)) (encodeValue value) = some value := by
  cases value with
  | bool b => cases b <;> rfl
  | num n => exact typeValue_toString _ n
  | str s => exact typeValue_kept _ fun _ same => by cases same; exact restorable
  | obj fields =>
    obtain ⟨formed, kept⟩ := restorable
    have nested : parseQueryObject (fuel + 1) fields = some fields :=
      parseQueryObject_forall₂
        (List.forall₂_same.mpr fun field mem => ⟨rfl, typeValue_kept _ (kept field mem).2⟩)
        formed.1 fun field mem => (kept field mem).1
    have brace : (stringify (.obj fields)).toList.head? = some '{' := by cases fields <;> rfl
    rw [encodeValue, typeValue, if_pos brace, parse_stringify formed]
    simp only [nested, Option.map_some']
  | null | arr _ => exact restorable.elim

/-- A collection query with each kind of typed value. -/
def collectionQuery : List (String × JsValue) :=
  [("model", .str "kjzl6hvfrbw6c"), ("first", .num 10), ("pin", .bool true),
    ("filter", .obj [("account", .str "did:key:z6Mk"), ("limit", .num 5)])]

/-- The condition the claim puts on a string of a typed query object: not `true` or `false`, not
`String(n)` for any number, and not starting with `{`. -/
def ClaimString (s : String) : Prop :=
  s ≠ "true" ∧ s ≠ "false" ∧ (∀ n : Int, s ≠ toString n) ∧ s.toList.head? ≠ some '{'

/-- Strings that start like numbers. -/
def numericPrefixQuery : List (String × JsValue) :=
  [("a", .str "12abc"), ("b", .str " 7"), ("c", .str "0x1f")]

/-! ## The legacy `sync` option -/

/-- The members of `SyncOptions` that `upconvertLegacySyncOption` writes. The enum is declared
outside the daemon; its members are numbers. -/
structure SyncOptions where
  preferCache : Int
  syncAlways : Int

/-- `upconvertLegacySyncOption(opts)`: a boolean `sync`, as HTTP clients older than v1.0.0 send
it, becomes `SYNC_ALWAYS` or `PREFER_CACHE` in its place, and absent options stay absent. The
prototype of `opts` is taken to hold no `sync`. -/
def upconvertLegacySyncOption (syncOptions : SyncOptions) :
    Option (List (String × JsValue)) → Option (List (String × JsValue))
  | some opts =>
    match opts.lookup "sync" with
    | some (.bool sync) =>
      some (setField opts "sync" (.num (if sync then syncOptions.syncAlways else syncOptions.preferCache)))
    | _ => some opts
  | none => none

/-- The options that the deprecated `stateOld` handler passes to `loadStream`: the typed query,
upconverted. The `state` handler passes the typed query as it is. `none` is a thrown
`SyntaxError`. -/
def stateOldOpts (syncOptions : SyncOptions) (fuel : Nat) (query : List (String × JsValue)) :
    Option (List (String × JsValue)) :=
  (parseQueryObject fuel query).bind fun opts => upconvertLegacySyncOption syncOptions (some opts)

theorem lookup_map_replace (fields : List (String × JsValue)) (key probe : String) (value : JsValue) :
    (fields.map fun field => if field.1 = key then (key, value) else field).lookup probe =
      if probe = key then (fields.lookup key).map fun _ => value else fields.lookup probe := by
  induction fields with
  | nil => split <;> rfl
  | cons field rest ih =>
    obtain ⟨k, v⟩ := field
    by_cases same : k = key
    · subst same
      simp only [List.map_cons, if_pos, lookup_cons_eq_ite, ih]
      split_ifs <;> rfl
    · simp only [List.map_cons, if_neg same, lookup_cons_eq_ite, ih]
      split_ifs <;> simp_all

/-- Setting a property of an object that has it changes the lookup of that key only, and no key. -/
theorem setField_of_lookup {fields : List (String × JsValue)} {key : String} {old : JsValue}
    (present : fields.lookup key = some old) (value : JsValue) :
    (setField fields key value).map (·.1) = fields.map (·.1) ∧
      ∀ probe, (setField fields key value).lookup probe =
        if probe = key then some value else fields.lookup probe := by
  have any : fields.any (·.1 = key) = true := by
    obtain ⟨field, mem, same⟩ := List.lookup_isSome_iff.mp (by rw [present]; rfl)
    exact List.any_eq_true.mpr ⟨field, mem, by simpa using (beq_iff_eq.mp same).symm⟩
  rw [setField, if_pos any, List.map_map]
  refine ⟨List.map_congr_left fun field _ => ?_, fun probe => ?_⟩
  · by_cases same : field.1 = key <;> simp [same]
  · rw [lookup_map_replace, present]
    rfl

/-- Upconverting changes no key, and no property but a boolean `sync`. -/
theorem upconvertLegacySyncOption_some (syncOptions : SyncOptions) (opts : List (String × JsValue)) :
    ∃ upconverted, upconvertLegacySyncOption syncOptions (some opts) = some upconverted ∧
      upconverted.map (·.1) = opts.map (·.1) ∧
      (∀ probe ≠ "sync", upconverted.lookup probe = opts.lookup probe) ∧
      upconverted.lookup "sync" =
        match opts.lookup "sync" with
        | some (.bool sync) =>
          some (.num (if sync then syncOptions.syncAlways else syncOptions.preferCache))
        | value => value := by
  rw [upconvertLegacySyncOption]
  split
  · next sync legacy =>
    obtain ⟨keys, lookup⟩ := setField_of_lookup legacy
      (.num (if sync then syncOptions.syncAlways else syncOptions.preferCache))
    exact ⟨_, rfl, keys, fun probe other => by rw [lookup, if_neg other], by rw [lookup, if_pos rfl]⟩
  · exact ⟨_, rfl, rfl, fun _ _ => rfl, rfl⟩

/-- Typing entries in place types each lookup. -/
theorem lookup_forall₂_typeValue {recurse : List (String × JsValue) → Option (List (String × JsValue))}
    {opts typed : List (String × JsValue)}
    (each : List.Forall₂ (fun entry field =>
      entry.1 = field.1 ∧ typeValue recurse entry.2 = some field.2) opts typed) (probe : String) :
    (opts.lookup probe).bind (typeValue recurse) = typed.lookup probe := by
  induction each with
  | nil => rfl
  | @cons entry field opts typed same _ ih =>
    rw [lookup_cons_eq_ite, lookup_cons_eq_ite, same.1]
    split
    · exact same.2
    · exact ih

/-- A `stateOld` query from an HTTP client older than v1.0.0. -/
def legacyStateQuery : List (String × JsValue) := [("sync", .str "true"), ("pin", .str "false")]

/-! ## The loop on any query -/

theorem lookup_of_mem_keys {fields : List (String × JsValue)} {key : String}
    (mem : key ∈ fields.map (·.1)) : ∃ old, fields.lookup key = some old := by
  obtain ⟨field, listed, rfl⟩ := List.mem_map.mp mem
  exact Option.isSome_iff_exists.mp (List.lookup_isSome_iff.mpr ⟨field, listed, beq_self_eq_true _⟩)

/-- `CreateDataProperty` changes the lookup of its key only. -/
theorem lookup_setField (fields : List (String × JsValue)) (key probe : String) (value : JsValue) :
    (setField fields key value).lookup probe = if probe = key then some value else fields.lookup probe := by
  by_cases fresh : key ∈ fields.map (·.1)
  · obtain ⟨old, found⟩ := lookup_of_mem_keys fresh
    exact (setField_of_lookup found value).2 probe
  · rw [setField_fresh fresh, List.lookup_append, lookup_cons_eq_ite, List.lookup_nil]
    by_cases same : probe = key
    · subst same
      have absent : fields.lookup probe = none :=
        List.lookup_eq_none_iff.mpr fun field mem => bne_iff_ne.mpr fun same =>
          fresh (List.mem_map.mpr ⟨field, mem, same.symm⟩)
      simp [absent]
    · simp [same]

theorem setField_keys_nodup {fields : List (String × JsValue)} (distinct : (fields.map (·.1)).Nodup)
    (key : String) (value : JsValue) : ((setField fields key value).map (·.1)).Nodup := by
  by_cases fresh : key ∈ fields.map (·.1)
  · obtain ⟨old, found⟩ := lookup_of_mem_keys fresh
    rw [(setField_of_lookup found value).1]
    exact distinct
  · rw [setField_fresh fresh, List.map_append]
    exact distinct.append (List.nodup_singleton _) (by simpa using fresh)

section AnyQuery

variable {recurse : List (String × JsValue) → Option (List (String × JsValue))}

/-- The loop throws exactly when typing some value throws. -/
theorem foldlM_readEntry_none : ∀ (opts built : List (String × JsValue)),
    opts.foldlM (readEntry recurse) built = none ↔ ∃ entry ∈ opts, typeValue recurse entry.2 = none
  | [], _ => by simp
  | entry :: rest, built => by
    rw [List.foldlM_cons]
    cases typed : typeValue recurse entry.2 with
    | none => simp [readEntry, typed]
    | some value => simp [readEntry, typed, foldlM_readEntry_none rest]

/-- On an accumulator with distinct keys and no `__proto__`, the loop keeps them so, and each key
takes the typed value of its last entry, or keeps what the accumulator held. -/
theorem foldlM_readEntry_some : ∀ (opts : List (String × JsValue)) {built typed : List (String × JsValue)},
    (built.map (·.1)).Nodup → built.lookup "__proto__" = none →
    opts.foldlM (readEntry recurse) built = some typed →
    (typed.map (·.1)).Nodup ∧ typed.lookup "__proto__" = none ∧
      ∀ key, key ≠ "__proto__" →
        typed.lookup key = (opts.reverse.lookup key).elim (built.lookup key) (typeValue recurse)
  | [], built, typed, distinct, noProto, read => by
    cases read
    exact ⟨distinct, noProto, fun _ _ => rfl⟩
  | (k, v) :: rest, built, typed, distinct, noProto, read => by
    rw [List.foldlM_cons] at read
    cases typed' : typeValue recurse v with
    | none => simp [readEntry, typed'] at read
    | some value =>
      simp only [readEntry, typed', Option.map_some', Option.some_bind] at read
      have assigned : ((assignProperty built k value).map (·.1)).Nodup ∧
          (assignProperty built k value).lookup "__proto__" = none ∧
          ∀ key, key ≠ "__proto__" → (assignProperty built k value).lookup key =
            if key = k then some value else built.lookup key := by
        unfold assignProperty
        split
        · rename_i proto
          exact ⟨distinct, noProto, fun key other => by rw [if_neg (proto ▸ other)]⟩
        · rename_i proto
          refine ⟨setField_keys_nodup distinct _ _, ?_, fun key _ => lookup_setField _ _ _ _⟩
          rw [lookup_setField, if_neg (Ne.symm proto)]
          exact noProto
      obtain ⟨distinct', noProto', look⟩ :=
        foldlM_readEntry_some rest assigned.1 assigned.2.1 read
      refine ⟨distinct', noProto', fun key other => ?_⟩
      rw [look key other, List.reverse_cons, List.lookup_append, assigned.2.2 key other]
      cases rest.reverse.lookup key with
      | some w => rfl
      | none =>
        rw [lookup_cons_eq_ite, List.lookup_nil]
        by_cases same : key = k <;> simp [same, typed']

end AnyQuery

/-! ## `healthcheck` -/

/-- `HEALTHCHECK_RETRIES`. -/
def healthcheckRetries : Nat := 3

/-- The retry loop of `healthcheck` from attempt `i`, with `remaining` attempts left. Each
`ceramic.ipfs.isOnline()` resolves to a boolean or throws (`none`; the error is only logged).
The response `res.status(status).send(text)` comes with the number of attempts made. -/
def probeIpfs (isOnline : Nat → Option Bool) : Nat → Nat → (Nat × String) × Nat
  | _, 0 => ((503, "IPFS unreachable"), 0)
  | i, remaining + 1 =>
    if isOnline i = some true then ((200, "Alive!"), 1)
    else ((probeIpfs isOnline (i + 1) remaining).1, (probeIpfs isOnline (i + 1) remaining).2 + 1)

/-- `healthcheck`, with the outcome of each `isOnline` attempt. `const { checkIpfs } =
parseQueryObject(req.query)` reads an own property; `none` is the `SyntaxError` of a query value
that starts with `{` and is no JSON. -/
def healthcheck (fuel : Nat) (query : List (String × JsValue)) (isOnline : Nat → Option Bool) :
    Option ((Nat × String) × Nat) :=
  (parseQueryObject fuel query).map fun typedOpts =>
    if typedOpts.lookup "checkIpfs" = some (.bool false) then ((200, "Alive!"), 0)
    else probeIpfs isOnline 0 healthcheckRetries

/-- The loop answers at the first attempt that finds IPFS online, after as many attempts, and
`503` after all of them otherwise. -/
theorem probeIpfs_find (isOnline : Nat → Option Bool) :
    ∀ (n i : Nat), probeIpfs isOnline i n =
      match (List.range n).find? fun j => isOnline (i + j) = some true with
      | some j => ((200, "Alive!"), j + 1)
      | none => ((503, "IPFS unreachable"), n)
  | 0, _ => rfl
  | n + 1, i => by
    rw [probeIpfs, List.range_succ_eq_map, List.find?_cons, probeIpfs_find isOnline n (i + 1),
      List.find?_map]
    by_cases online : isOnline i = some true
    · simp [online]
    · simp only [online, if_false, Nat.add_zero, decide_False]
      have shift : ((fun j => decide (isOnline (i + j) = some true)) ∘ Nat.succ) =
          fun j => decide (isOnline (i + 1 + j) = some true) := by
        funext j; simp only [Function.comp, Nat.succ_eq_add_one, Nat.add_assoc, Nat.add_comm 1]
      rw [shift]
      cases (List.range n).find? fun j => decide (isOnline (i + 1 + j) = some true) <;> rfl

/-- Typing gives `false` to the text `"false"` and to `false` itself, and to nothing else. -/
theorem typeValue_eq_false (recurse : List (String × JsValue) → Option (List (String × JsValue)))
    (value : JsValue) :
    typeValue recurse value = some (.bool false) ↔ value = .str "false" ∨ value = .bool false := by
  cases value with
  | str text =>
    have brace : text = "false" → text.toList.head? ≠ some '{' := by rintro rfl; decide
    simp only [typeValue]
    split_ifs with opens
    · have other : text ≠ "false" := fun same => brace same opens
      split <;> simp [other]
    · simp_all
    · simp_all
    · split <;> simp_all
  | bool b => cases b <;> simp [typeValue]
  | _ => simp [typeValue]

end Ceramic.Json
