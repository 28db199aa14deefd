import Ceramic.Json

/-! The daemon's admin-code store: `generateAdminCode` and `_verifyAndDiscardAdminCode`
over the `lru_map` cache `adminCodeCache`. A verification returns normally only for a code
generated no more than `ADMIN_CODE_EXPIRATION_TIMEOUT` before the reading it takes and not
accepted since (`verified_codes_issued_once`). The argument uses only that every cache
operation keeps, drops or overwrites entries, never invents one, so it holds whatever the
cache evicts.

The cache never holds more than `ADMIN_CODE_CACHE_CAPACITY` codes (`replay_within_capacity`).
Until that many codes have been generated it answers as a plain map of codes to times does
(`replay_plain_below_capacity`), so a code verified within the timeout after its generation is
accepted (`prompt_code_accepted`); that many later generations evict it (`flood_evicts_code`). -/
namespace Ceramic.AdminCodes

/-- `lru_map`'s `LRUMap`: entries oldest first, at most one per key. -/
structure LRUMap (K V : Type) [DecidableEq K] where
  limit : Nat
  entries : List (K × V)
  keys_nodup : (entries.map Prod.fst).Nodup

namespace LRUMap

variable {K V : Type} [DecidableEq K]

/-- `new LRUMap(limit)`. -/
def empty (limit : Nat) : LRUMap K V := ⟨limit, [], List.nodup_nil⟩

/-- The value kept under `key`, read without marking the entry used. -/
def find (m : LRUMap K V) (key : K) : Option V := m.entries.lookup key

theorem without_keys_nodup {entries : List (K × V)} (nodup : (entries.map Prod.fst).Nodup)
    (key : K) : ((Json.without entries key).map Prod.fst).Nodup :=
  nodup.sublist ((List.filter_sublist entries).map Prod.fst)

theorem newest_keys_nodup {entries : List (K × V)} (nodup : (entries.map Prod.fst).Nodup)
    {key : K} (fresh : entries.lookup key = none) (value : V) :
    ((entries ++ [(key, value)]).map Prod.fst).Nodup := by
  have absent : key ∉ entries.map Prod.fst := by
    simp only [List.lookup_eq_none_iff] at fresh
    simp only [List.mem_map, not_exists, not_and]
    intro entry mem same
    simpa [same] using fresh entry mem
  simpa [List.nodup_append, absent] using nodup

/-- `_markEntryAsUsed`: the entry, now holding `value`, moves to the newest end. -/
def markUsed (m : LRUMap K V) (key : K) (value : V) : LRUMap K V :=
  ⟨m.limit, Json.without m.entries key ++ [(key, value)],
    newest_keys_nodup (without_keys_nodup m.keys_nodup key) (by simp) value⟩

/-- `set`: an existing key takes the value and becomes newest; a new key is added as newest,
and `shift` drops the oldest entry once the size passes `limit`. -/
def set (m : LRUMap K V) (key : K) (value : V) : LRUMap K V :=
  match fresh : m.find key with
  | some _ => m.markUsed key value
  | none =>
    have nodup := newest_keys_nodup m.keys_nodup fresh value
    if m.limit < m.entries.length + 1 then
      ⟨m.limit, (m.entries ++ [(key, value)]).tail, by
        simpa [List.map_tail] using nodup.sublist (List.tail_sublist _)⟩
    else ⟨m.limit, m.entries ++ [(key, value)], nodup⟩

/-- `get`: the value under `key`, whose entry is marked used. -/
def get (m : LRUMap K V) (key : K) : Option V × LRUMap K V :=
  match m.find key with
  | some value => (some value, m.markUsed key value)
  | none => (none, m)

/-- `delete`. -/
def delete (m : LRUMap K V) (key : K) : LRUMap K V :=
  ⟨m.limit, Json.without m.entries key, without_keys_nodup m.keys_nodup key⟩

/-- Dropping the oldest entry never brings an older value of a key to light. -/
theorem lookup_tail_eq_some {entries : List (K × V)} (nodup : (entries.map Prod.fst).Nodup)
    {probe : K} {value : V} (found : entries.tail.lookup probe = some value) :
    entries.lookup probe = some value := by
  cases entries with
  | nil => cases found
  | cons entry rest =>
    obtain ⟨k, v⟩ := entry
    replace found : rest.lookup probe = some value := found
    have kept : probe ∈ rest.map Prod.fst := by
      obtain ⟨p, mem, same⟩ := List.lookup_isSome_iff.mp (by rw [found]; rfl)
      exact List.mem_map.mpr ⟨p, mem, (beq_iff_eq.mp same).symm⟩
    have other : probe ≠ k := fun same => (List.nodup_cons.mp nodup).1 (same ▸ kept)
    simpa [Json.lookup_cons_eq_ite, other] using found

@[simp] theorem find_markUsed (m : LRUMap K V) (key probe : K) (value : V) :
    (m.markUsed key value).find probe = if probe = key then some value else m.find probe := by
  by_cases same : probe = key
  · subst same; simp [markUsed, find, List.lookup_append]
  · simp [markUsed, find, List.lookup_append, same,
      Json.lookup_cons_eq_ite]

@[simp] theorem find_delete (m : LRUMap K V) (key probe : K) :
    (m.delete key).find probe = if probe = key then none else m.find probe := by
  by_cases same : probe = key
  · subst same; simp [delete, find]
  · simp [delete, find, same]

@[simp] theorem get_fst (m : LRUMap K V) (key : K) : (m.get key).1 = m.find key := by
  unfold get; split <;> simp_all

/-- Reading marks the entry used and changes no lookup. -/
@[simp] theorem find_get (m : LRUMap K V) (key probe : K) :
    (m.get key).2.find probe = m.find probe := by
  unfold get
  split
  · rename_i value found
    by_cases same : probe = key
    · subst same; simp [found]
    · simp [same]
  · rfl

theorem find_appended {m : LRUMap K V} {key probe : K} {value stored : V}
    (fresh : m.find key = none)
    (found : (m.entries ++ [(key, value)]).lookup probe = some stored) :
    (probe = key ∧ stored = value) ∨ (probe ≠ key ∧ m.find probe = some stored) := by
  rw [List.lookup_append, Json.lookup_cons_eq_ite] at found
  by_cases same : probe = key
  · subst same
    simp only [find] at fresh
    simp only [fresh, ↓reduceIte, Option.none_or, Option.some.injEq] at found
    exact .inl ⟨rfl, found.symm⟩
  · simp only [same, ↓reduceIte, List.lookup_nil, Option.or_none] at found
    exact .inr ⟨same, found⟩

/-- After `set`, a key holds either the value just set or what it held before. -/
theorem find_set_eq_some {m : LRUMap K V} {key probe : K} {value stored : V}
    (found : (m.set key value).find probe = some stored) :
    (probe = key ∧ stored = value) ∨ (probe ≠ key ∧ m.find probe = some stored) := by
  unfold set at found
  split at found
  · by_cases same : probe = key <;> simp_all
  · rename_i fresh
    split at found
    · exact find_appended fresh
        (lookup_tail_eq_some (newest_keys_nodup m.keys_nodup fresh value) found)
    · exact find_appended fresh found

theorem limit_set (m : LRUMap K V) (key : K) (value : V) : (m.set key value).limit = m.limit := by
  unfold set; split
  · rfl
  · split <;> rfl

theorem limit_get (m : LRUMap K V) (key : K) : (m.get key).2.limit = m.limit := by
  unfold get; split <;> rfl

theorem length_without_lt {m : LRUMap K V} {key : K} {value : V} (found : m.find key = some value) :
    (Json.without m.entries key).length < m.entries.length := by
  obtain ⟨entry, mem, same⟩ := List.lookup_isSome_iff.mp (by rw [show m.entries.lookup key = some value from found]; rfl)
  exact List.length_filter_lt_length_iff_exists.mpr ⟨entry, mem, by simpa using (beq_iff_eq.mp same).symm⟩

theorem length_markUsed_le {m : LRUMap K V} {key : K} {old : V} (found : m.find key = some old)
    (value : V) : (m.markUsed key value).entries.length ≤ m.entries.length := by
  have := length_without_lt found
  simp only [markUsed, List.length_append, List.length_singleton]
  omega

theorem length_get_le (m : LRUMap K V) (key : K) : (m.get key).2.entries.length ≤ m.entries.length := by
  unfold get; split
  · exact length_markUsed_le ‹_› _
  · exact le_refl _

theorem length_delete_le (m : LRUMap K V) (key : K) : (m.delete key).entries.length ≤ m.entries.length :=
  List.length_filter_le _ _

/-- `set` adds at most one entry, and none once the map is full. -/
theorem length_set_le (m : LRUMap K V) (key : K) (value : V) :
    (m.set key value).entries.length ≤ m.entries.length + 1 ∧
      (m.entries.length ≤ m.limit → (m.set key value).entries.length ≤ m.limit) := by
  unfold set
  split
  · have := length_markUsed_le ‹_› value (m := m)
    omega
  · split
    · simp only [List.length_tail, List.length_append, List.length_singleton]
      omega
    · simp only [List.length_append, List.length_singleton]
      omega

/-- Below its limit, `set` evicts nothing. -/
theorem find_set_of_room {m : LRUMap K V} (room : m.entries.length < m.limit) (key probe : K)
    (value : V) : (m.set key value).find probe = if probe = key then some value else m.find probe := by
  unfold set
  split
  · exact find_markUsed m key probe value
  · rename_i fresh
    dsimp only
    rw [if_neg (show ¬m.limit < m.entries.length + 1 by omega)]
    simp only [find, List.lookup_append, Json.lookup_cons_eq_ite, List.lookup_nil]
    by_cases same : probe = key
    · subst same
      simp only [find] at fresh
      simp [fresh]
    · simp [same]

/-- A new key is appended, and the oldest entry dropped once the map is past its limit. -/
theorem set_fresh_entries {m : LRUMap K V} {key : K} (fresh : m.find key = none) (value : V) :
    (m.set key value).entries =
      if m.limit < m.entries.length + 1 then (m.entries ++ [(key, value)]).tail
      else m.entries ++ [(key, value)] := by
  unfold set
  split
  · simp_all
  · dsimp only
    split <;> rfl

/-- Setting new keys one after another, with no read between, keeps the newest entries up to the
limit. -/
theorem foldl_set_fresh_entries : ∀ (fresh : List (K × V)) (m : LRUMap K V),
    (fresh.map (·.1)).Nodup → (∀ key ∈ fresh.map (·.1), m.find key = none) →
    m.entries.length ≤ m.limit →
    (fresh.foldl (fun m entry => m.set entry.1 entry.2) m).entries =
      (m.entries ++ fresh).drop (m.entries.length + fresh.length - m.limit)
  | [], m, _, _, within => by simp [Nat.sub_eq_zero_of_le within]
  | (key, value) :: rest, m, distinct, unseen, within => by
    simp only [List.map_cons, List.nodup_cons, List.mem_cons, forall_eq_or_imp] at distinct unseen
    have seen : ∀ other ∈ rest.map (·.1), (m.set key value).find other = none := by
      intro other mem
      cases found : (m.set key value).find other with
      | none => rfl
      | some stored =>
        rcases find_set_eq_some found with ⟨rfl, -⟩ | ⟨-, kept⟩
        · exact absurd mem distinct.1
        · rw [unseen.2 other mem] at kept; cases kept
    have room := (m.length_set_le key value).2 within
    rw [List.foldl_cons, foldl_set_fresh_entries rest _ distinct.2 seen (by rwa [limit_set]),
      limit_set, set_fresh_entries unseen.1]
    split_ifs with full
    · have joined : (m.entries ++ [(key, value)]).tail ++ rest =
          (m.entries ++ (key, value) :: rest).drop 1 := by
        cases m.entries <;> simp
      rw [joined, List.drop_drop, List.length_tail, List.length_append, List.length_singleton,
        List.length_cons]
      congr 1
      omega
    · rw [List.append_assoc, List.singleton_append, List.length_append, List.length_singleton,
        List.length_cons]
      congr 1
      omega

end LRUMap

/-- `ADMIN_CODE_EXPIRATION_TIMEOUT`: one minute, in milliseconds. -/
def adminCodeExpirationTimeout : Int := 1000 * 60 * 1

/-- `ADMIN_CODE_CACHE_CAPACITY`. -/
def adminCodeCacheCapacity : Nat := 50

/-- `type AdminCode = string`. -/
abbrev AdminCode := String

/-- `type Timestamp = number`, the milliseconds `new Date().getTime()` reads. -/
abbrev Timestamp := Int

/-- `adminCodeCache`: each code, with the time it was generated. -/
abbrev AdminCodeCache := LRUMap AdminCode Timestamp

/-- The cache a daemon is constructed with. -/
def initialAdminCodeCache : AdminCodeCache := LRUMap.empty adminCodeCacheCapacity

/-- `generateAdminCode`, where `crypto.randomUUID()` gave `newCode` and the clock read `now`. -/
def generateAdminCode (newCode : AdminCode) (now : Timestamp) :
    EStateM String AdminCodeCache AdminCode := do
  modify fun cache => cache.set newCode now
  pure newCode

/-- JavaScript truthiness of what `adminCodeCache.get` returns: `undefined` and `0` are falsy. -/
def truthy : Option Timestamp → Bool
  | some stored => stored ≠ 0
  | none => false

/-- `now - adminCodeCache.get(code) > ADMIN_CODE_EXPIRATION_TIMEOUT`. A missing entry makes the
difference `NaN`, and no comparison with `NaN` holds. -/
def expired (now : Timestamp) : Option Timestamp → Bool
  | some stored => now - stored > adminCodeExpirationTimeout
  | none => false

def invalidAdminCodeMessage : String :=
  "Unauthorized access: invalid/already used admin code"

def expiredAdminCodeMessage : String :=
  s!"Unauthorized access: expired admin code - admin codes are only valid for {adminCodeExpirationTimeout / 1000} seconds"

/-- `_verifyAndDiscardAdminCode`, with the clock reading `now`. Both reads are `get`s, which mark
the entry used; a throw keeps what they did. -/
def verifyAndDiscardAdminCode (code : AdminCode) (now : Timestamp) :
    EStateM String AdminCodeCache Unit := do
  let stored ← modifyGet fun cache => cache.get code
  if !truthy stored then
    throw invalidAdminCodeMessage
  else
    let stored ← modifyGet fun cache => cache.get code
    if expired now stored then
      throw expiredAdminCodeMessage
    else
      modify fun cache => cache.delete code

theorem generateAdminCode_run (newCode : AdminCode) (now : Timestamp) (cache : AdminCodeCache) :
    (generateAdminCode newCode now).run cache = .ok newCode (cache.set newCode now) := rfl

theorem verifyAndDiscardAdminCode_run (code : AdminCode) (now : Timestamp)
    (cache : AdminCodeCache) :
    (verifyAndDiscardAdminCode code now).run cache =
      if !truthy (cache.find code) then .error invalidAdminCodeMessage (cache.get code).2
      else if expired now (cache.find code) then
        .error expiredAdminCodeMessage ((cache.get code).2.get code).2
      else .ok () (((cache.get code).2.get code).2.delete code) := by
  simp only [verifyAndDiscardAdminCode, EStateM.run, bind, EStateM.bind, modifyGet,
    MonadStateOf.modifyGet, EStateM.modifyGet, LRUMap.get_fst, LRUMap.find_get]
  split
  · rfl
  · simp only [EStateM.bind, EStateM.modifyGet, LRUMap.get_fst, LRUMap.find_get]
    split <;> rfl

/-- A verification that returns normally found the code stored no more than
`ADMIN_CODE_EXPIRATION_TIMEOUT` ago, and discards exactly that code. -/
theorem verify_ok {code : AdminCode} {now : Timestamp} {cache cache' : AdminCodeCache}
    (ok : (verifyAndDiscardAdminCode code now).run cache = .ok () cache') :
    ∃ issued, cache.find code = some issued ∧ now - issued ≤ adminCodeExpirationTimeout ∧
      ∀ probe, cache'.find probe = if probe = code then none else cache.find probe := by
  rw [verifyAndDiscardAdminCode_run] at ok
  split at ok
  · cases ok
  · split at ok
    · cases ok
    · rename_i present fresh
      cases ok
      cases found : cache.find code with
      | none => simp [found, truthy] at present
      | some issued =>
        refine ⟨issued, rfl, ?_, fun probe => by simp⟩
        simpa [found, expired] using fresh

/-- A verification that throws changes no lookup. -/
theorem verify_error {code : AdminCode} {now : Timestamp} {cache cache' : AdminCodeCache}
    {message : String} (error : (verifyAndDiscardAdminCode code now).run cache = .error message cache') :
    ∀ probe, cache'.find probe = cache.find probe := by
  rw [verifyAndDiscardAdminCode_run] at error
  split at error
  · cases error; simp
  · split at error
    · cases error; simp
    · cases error

/-! ## Runs of the store -/

/-- One call on the store, with the clock reading it takes. -/
inductive AdminCodeCall where
  | generate (newCode : AdminCode) (now : Timestamp)
  | verify (code : AdminCode) (now : Timestamp)
  deriving DecidableEq, Repr

/-- What a call did: a code handed out, or a verification that returned or threw. -/
inductive AdminCodeEvent where
  | generated (code : AdminCode) (now : Timestamp)
  | accepted (code : AdminCode) (now : Timestamp)
  | rejected (code : AdminCode) (now : Timestamp)
  deriving DecidableEq, Repr

/-- One call made on `cache`: what it did, and the cache it leaves. -/
def step (cache : AdminCodeCache) : AdminCodeCall → AdminCodeEvent × AdminCodeCache
  | .generate newCode now =>
    match (generateAdminCode newCode now).run cache with
    | .ok code cache => (.generated code now, cache)
    | .error _ cache => (.generated newCode now, cache)
  | .verify code now =>
    match (verifyAndDiscardAdminCode code now).run cache with
    | .ok () cache => (.accepted code now, cache)
    | .error _ cache => (.rejected code now, cache)

/-- The calls made one after another from `cache`: what each did, and the final cache. -/
def replay (cache : AdminCodeCache) : List AdminCodeCall → List AdminCodeEvent × AdminCodeCache
  | [] => ([], cache)
  | call :: calls =>
    let (event, cache) := step cache call
    let (events, cache) := replay cache calls
    (event :: events, cache)

/-- `code` was generated at `issued` and has not been accepted since. -/
def Unspent (history : List AdminCodeEvent) (code : AdminCode) (issued : Timestamp) : Prop :=
  ∃ before after, history = before ++ .generated code issued :: after ∧
    ∀ now, .accepted code now ∉ after

/-- Every acceptance of a code at `now` follows a generation of it at some `issued` with
`now - issued ≤ ADMIN_CODE_EXPIRATION_TIMEOUT`, and no acceptance of it in between. -/
def AcceptsIssued (history : List AdminCodeEvent) : Prop :=
  ∀ before code now after, history = before ++ .accepted code now :: after →
    ∃ issued, now - issued ≤ adminCodeExpirationTimeout ∧ Unspent before code issued

/-- The cache holds a code only while the generation that stored it is unspent. -/
def CacheIssued (cache : AdminCodeCache) (history : List AdminCodeEvent) : Prop :=
  ∀ code issued, cache.find code = some issued → Unspent history code issued

/-- The run invariant. -/
structure Good (cache : AdminCodeCache) (history : List AdminCodeEvent) : Prop where
  cache_issued : CacheIssued cache history
  accepts_issued : AcceptsIssued history

theorem unspent_snoc {history : List AdminCodeEvent} {code : AdminCode} {issued : Timestamp}
    (unspent : Unspent history code issued) {event : AdminCodeEvent}
    (other : ∀ now, event ≠ .accepted code now) : Unspent (history ++ [event]) code issued := by
  obtain ⟨before, after, rfl, clean⟩ := unspent
  refine ⟨before, after ++ [event], by simp, fun now mem => ?_⟩
  rcases List.mem_append.mp mem with mem | mem
  · exact clean now mem
  · exact other now (List.mem_singleton.mp mem).symm

theorem unspent_generated (history : List AdminCodeEvent) (code : AdminCode) (issued : Timestamp) :
    Unspent (history ++ [.generated code issued]) code issued :=
  ⟨history, [], rfl, fun _ => List.not_mem_nil _⟩

theorem acceptsIssued_snoc {history : List AdminCodeEvent} (good : AcceptsIssued history)
    {event : AdminCodeEvent}
    (last : ∀ code now, event = .accepted code now →
      ∃ issued, now - issued ≤ adminCodeExpirationTimeout ∧ Unspent history code issued) :
    AcceptsIssued (history ++ [event]) := by
  intro before code now after split
  rcases List.eq_nil_or_concat after with rfl | ⟨after, final, rfl⟩
  · obtain ⟨rfl, same⟩ := List.append_inj' split rfl
    exact last code now (List.singleton_inj.mp same)
  · rw [List.concat_eq_append, ← List.cons_append, ← List.append_assoc] at split
    obtain ⟨earlier, -⟩ := List.append_inj' split rfl
    exact good before code now after earlier

/-- One call keeps the invariant. -/
theorem step_good {cache : AdminCodeCache} {history : List AdminCodeEvent}
    (good : Good cache history) (call : AdminCodeCall) :
    Good (step cache call).2 (history ++ [(step cache call).1]) := by
  cases call with
  | generate newCode now =>
    simp only [step, generateAdminCode_run]
    refine ⟨fun code issued found => ?_, acceptsIssued_snoc good.accepts_issued (by simp)⟩
    rcases LRUMap.find_set_eq_some found with ⟨rfl, rfl⟩ | ⟨-, kept⟩
    · exact unspent_generated history code issued
    · exact unspent_snoc (good.cache_issued code issued kept) (by simp)
  | verify code now =>
    simp only [step]
    split
    · rename_i cache' ok
      obtain ⟨issued, found, fresh, discarded⟩ := verify_ok ok
      refine ⟨fun other stored kept => ?_, acceptsIssued_snoc good.accepts_issued ?_⟩
      · have distinct : other ≠ code := by intro same; simp [discarded, same] at kept
        rw [discarded, if_neg distinct] at kept
        exact unspent_snoc (good.cache_issued other stored kept) (by simp [Ne.symm distinct])
      · rintro _ _ ⟨⟩
        exact ⟨issued, fresh, good.cache_issued code issued found⟩
    · rename_i cache' message error
      refine ⟨fun other stored kept => ?_, acceptsIssued_snoc good.accepts_issued (by simp)⟩
      rw [verify_error error] at kept
      exact unspent_snoc (good.cache_issued other stored kept) (by simp)

/-- A run keeps the invariant, whatever came before it. -/
theorem replay_accepts_issued (calls : List AdminCodeCall) :
    ∀ {cache : AdminCodeCache} {history : List AdminCodeEvent}, Good cache history →
      AcceptsIssued (history ++ (replay cache calls).1) := by
  induction calls with
  | nil => intro cache history good; simpa [replay] using good.accepts_issued
  | cons call calls ih =>
    intro cache history good
    simpa [replay] using ih (step_good good call)

/-- Every admin code `_verifyAndDiscardAdminCode` accepts was generated no more than
`ADMIN_CODE_EXPIRATION_TIMEOUT` before the acceptance and not accepted since: codes are
single-use and expire, for every sequence of calls and clock readings. -/
theorem verified_codes_issued_once (calls : List AdminCodeCall) :
    AcceptsIssued (replay initialAdminCodeCache calls).1 := by
  simpa using @replay_accepts_issued calls _ []
    ⟨fun code issued found => by simp [initialAdminCodeCache, LRUMap.empty, LRUMap.find] at found,
     fun before code now after split => by simp at split⟩

example : (replay initialAdminCodeCache
    [.generate "c" 5, .verify "c" 60005, .verify "c" 60006, .generate "d" 1, .verify "d" 60002]).1 =
    [.generated "c" 5, .accepted "c" 60005, .rejected "c" 60006, .generated "d" 1,
      .rejected "d" 60002] := by decide

/-! ## The cache below its capacity -/

/-- The code a call names. -/
def AdminCodeCall.code : AdminCodeCall → AdminCode
  | .generate newCode _ => newCode
  | .verify code _ => code

/-- Whether a call generates a code. -/
def AdminCodeCall.generates : AdminCodeCall → Bool
  | .generate _ _ => true
  | .verify _ _ => false

/-- What the admin-code cache is for: each code's latest generation time, until the code is
accepted, with no limit on how many are kept. -/
abbrev PlainStore := AdminCode → Option Timestamp

/-- One call on the plain store, with the checks of `_verifyAndDiscardAdminCode`. -/
def plainStep (store : PlainStore) : AdminCodeCall → AdminCodeEvent × PlainStore
  | .generate newCode now => (.generated newCode now, Function.update store newCode (some now))
  | .verify code now =>
    if !truthy (store code) || expired now (store code) then (.rejected code now, store)
    else (.accepted code now, Function.update store code none)

/-- The calls made one after another on the plain store. -/
def plainReplay (store : PlainStore) : List AdminCodeCall → List AdminCodeEvent × PlainStore
  | [] => ([], store)
  | call :: calls =>
    let (event, store) := plainStep store call
    let (events, store) := plainReplay store calls
    (event :: events, store)

/-- A verification reads the code twice and may discard it; it adds no entry. -/
theorem verify_tracks (code : AdminCode) (now : Timestamp) (cache : AdminCodeCache) :
    (step cache (.verify code now)).1 = (plainStep (cache.find) (.verify code now)).1 ∧
      (∀ k, (step cache (.verify code now)).2.find k = (plainStep cache.find (.verify code now)).2 k) ∧
      (step cache (.verify code now)).2.limit = cache.limit ∧
      (step cache (.verify code now)).2.entries.length ≤ cache.entries.length := by
  have twice := (cache.get code).2.length_get_le code
  have once := cache.length_get_le code
  simp only [step, plainStep, verifyAndDiscardAdminCode_run]
  cases truthy (cache.find code)
  case false =>
    simp only [Bool.not_false, Bool.true_or, ↓reduceIte]
    exact ⟨trivial, fun k => LRUMap.find_get _ _ _, LRUMap.limit_get _ _, once⟩
  cases expired now (cache.find code) <;>
    simp only [Bool.not_true, Bool.false_or, Bool.false_eq_true, ↓reduceIte]
  · refine ⟨trivial, fun k => ?_, by simp [LRUMap.delete, LRUMap.limit_get],
      (LRUMap.length_delete_le _ _).trans (by omega)⟩
    rw [LRUMap.find_delete, LRUMap.find_get, LRUMap.find_get, Function.update_apply]
  · exact ⟨trivial, fun k => by simp, by simp [LRUMap.limit_get], by omega⟩

/-- While there is room for the code it generates, a call on the cache does what it does on the
plain store that holds the same lookups. -/
theorem step_tracks {cache : AdminCodeCache} {store : PlainStore}
    (finds : ∀ k, cache.find k = store k) (call : AdminCodeCall)
    (room : cache.entries.length + (if call.generates then 1 else 0) ≤ cache.limit) :
    (step cache call).1 = (plainStep store call).1 ∧
      (∀ k, (step cache call).2.find k = (plainStep store call).2 k) ∧
      (step cache call).2.limit = cache.limit ∧
      (step cache call).2.entries.length ≤ cache.entries.length + (if call.generates then 1 else 0) := by
  have same : store = cache.find := funext fun k => (finds k).symm
  subst same
  cases call with
  | generate newCode now =>
    simp only [AdminCodeCall.generates, ↓reduceIte] at room ⊢
    simp only [step, plainStep, generateAdminCode_run]
    exact ⟨trivial, fun k => by rw [LRUMap.find_set_of_room (by omega), Function.update_apply],
      LRUMap.limit_set _ _ _, (cache.length_set_le newCode now).1⟩
  | verify code now => simpa [AdminCodeCall.generates] using verify_tracks code now cache

theorem replay_tracks : ∀ (calls : List AdminCodeCall) {cache : AdminCodeCache} {store : PlainStore},
    (∀ k, cache.find k = store k) →
    cache.entries.length + calls.countP AdminCodeCall.generates ≤ cache.limit →
    (replay cache calls).1 = (plainReplay store calls).1
  | [], _, _, _, _ => rfl
  | call :: calls, cache, store, finds, room => by
    rw [List.countP_cons] at room
    obtain ⟨event, finds', limit, length⟩ := step_tracks finds call (by omega)
    simp only [replay, plainReplay, event, replay_tracks calls finds' (by omega)]

theorem initial_room {calls : List AdminCodeCall}
    (few : calls.countP AdminCodeCall.generates ≤ adminCodeCacheCapacity) :
    initialAdminCodeCache.entries.length + calls.countP AdminCodeCall.generates ≤
      initialAdminCodeCache.limit := by
  simpa [initialAdminCodeCache, LRUMap.empty] using few

/-- Until `ADMIN_CODE_CACHE_CAPACITY` codes have been generated, the daemon's cache answers every
call as the plain store does: `lru_map` has evicted nothing. -/
theorem replay_plain_below_capacity (calls : List AdminCodeCall)
    (few : calls.countP AdminCodeCall.generates ≤ adminCodeCacheCapacity) :
    (replay initialAdminCodeCache calls).1 = (plainReplay (fun _ => none) calls).1 :=
  replay_tracks calls (fun _ => rfl) (initial_room few)

theorem replay_plain_below_capacity_sample :
    [AdminCodeCall.generate "c" 5, .verify "c" 60005, .verify "c" 60006].countP
        AdminCodeCall.generates ≤ adminCodeCacheCapacity ∧
      (replay initialAdminCodeCache [.generate "c" 5, .verify "c" 60005, .verify "c" 60006]).1 =
        (plainReplay (fun _ => none) [.generate "c" 5, .verify "c" 60005, .verify "c" 60006]).1 :=
  ⟨by decide, replay_plain_below_capacity _ (by decide)⟩

/-- Every call keeps the cache within its limit. -/
theorem step_within_limit {cache : AdminCodeCache} (within : cache.entries.length ≤ cache.limit)
    (call : AdminCodeCall) :
    (step cache call).2.entries.length ≤ cache.limit ∧ (step cache call).2.limit = cache.limit := by
  cases call with
  | generate newCode now =>
    simp only [step, generateAdminCode_run]
    exact ⟨(cache.length_set_le newCode now).2 within, LRUMap.limit_set _ _ _⟩
  | verify code now =>
    obtain ⟨-, -, limit, length⟩ := verify_tracks code now cache
    exact ⟨length.trans within, limit⟩

theorem replay_within_limit : ∀ (calls : List AdminCodeCall) {cache : AdminCodeCache},
    cache.entries.length ≤ cache.limit → (replay cache calls).2.entries.length ≤ cache.limit
  | [], _, within => within
  | call :: calls, cache, within => by
    obtain ⟨within', limit⟩ := step_within_limit within call
    simpa only [replay, ← limit] using replay_within_limit calls (limit ▸ within')

/-- However many codes are requested, the daemon's cache never holds more than
`ADMIN_CODE_CACHE_CAPACITY` of them. -/
theorem replay_within_capacity (calls : List AdminCodeCall) :
    (replay initialAdminCodeCache calls).2.entries.length ≤ adminCodeCacheCapacity :=
  replay_within_limit calls (Nat.zero_le _)

theorem plainReplay_append (store : PlainStore) :
    ∀ first second : List AdminCodeCall, plainReplay store (first ++ second) =
      ((plainReplay store first).1 ++ (plainReplay (plainReplay store first).2 second).1,
        (plainReplay (plainReplay store first).2 second).2)
  | [], _ => rfl
  | call :: first, second => by
    rw [List.cons_append]
    simp only [plainReplay]
    rw [plainReplay_append _ first second]
    rfl

/-- Calls on other codes leave a code's entry in the plain store. -/
theorem plainReplay_other {code : AdminCode} :
    ∀ (calls : List AdminCodeCall) (store : PlainStore), (∀ call ∈ calls, call.code ≠ code) →
      (plainReplay store calls).2 code = store code
  | [], _, _ => rfl
  | call :: calls, store, other => by
    have rest := plainReplay_other calls (plainStep store call).2
      fun c mem => other c (List.mem_cons_of_mem _ mem)
    have here : (plainStep store call).2 code = store code := by
      have named := other call (List.mem_cons_self _ _)
      cases call with
      | generate newCode now => exact Function.update_noteq (Ne.symm named) _ _
      | verify probe now =>
        simp only [plainStep]
        split
        · rfl
        · exact Function.update_noteq (Ne.symm named) _ _
    simp only [plainReplay, rest, here]

/-- A code verified no more than `ADMIN_CODE_EXPIRATION_TIMEOUT` after its latest generation, with
no call on it in between, is accepted, as long as at most `ADMIN_CODE_CACHE_CAPACITY` codes have
been generated. The clock must not have read `0` at the generation, as `0` is falsy. -/
theorem prompt_code_accepted {pre post : List AdminCodeCall} {code : AdminCode}
    {issued now : Timestamp}
    (few : (pre ++ .generate code issued :: post).countP AdminCodeCall.generates ≤
      adminCodeCacheCapacity)
    (untouched : ∀ call ∈ post, call.code ≠ code) (nonzero : issued ≠ 0)
    (prompt : now - issued ≤ adminCodeExpirationTimeout) :
    (replay initialAdminCodeCache (pre ++ .generate code issued :: post ++ [.verify code now])).1 =
      (replay initialAdminCodeCache (pre ++ .generate code issued :: post)).1 ++
        [.accepted code now] := by
  have few' : ((pre ++ AdminCodeCall.generate code issued :: post) ++
      [AdminCodeCall.verify code now]).countP
      AdminCodeCall.generates ≤ adminCodeCacheCapacity := by
    simpa [List.countP_append, AdminCodeCall.generates] using few
  have plain (calls : List AdminCodeCall)
      (few : calls.countP AdminCodeCall.generates ≤ adminCodeCacheCapacity) :
      (replay initialAdminCodeCache calls).1 = (plainReplay (fun _ => none) calls).1 :=
    replay_tracks calls (fun _ => rfl) (initial_room few)
  rw [plain _ few', plain _ few, plainReplay_append]
  have stored :
      (plainReplay (fun _ => none) (pre ++ AdminCodeCall.generate code issued :: post)).2 code =
      some issued := by
    rw [plainReplay_append]
    dsimp only [plainReplay]
    rw [plainReplay_other post _ untouched]
    exact Function.update_same _ _ _
  have fresh : ¬now - issued > adminCodeExpirationTimeout := not_lt.mpr prompt
  simp only [plainReplay, plainStep, stored, truthy, expired, nonzero, fresh, ne_eq,
    not_false_eq_true, decide_True, decide_False, Bool.not_true, Bool.or_false, Bool.false_eq_true,
    ↓reduceIte]

theorem prompt_code_accepted_sample :
    ([AdminCodeCall.generate "d" 1] ++ AdminCodeCall.generate "c" 5 :: [.verify "d" 2]).countP
        AdminCodeCall.generates ≤ adminCodeCacheCapacity ∧
      (∀ call ∈ [AdminCodeCall.verify "d" 2], call.code ≠ "c") ∧ (5 : Timestamp) ≠ 0 ∧
      (60005 : Timestamp) - 5 ≤ adminCodeExpirationTimeout ∧
      (replay initialAdminCodeCache
          ([AdminCodeCall.generate "d" 1] ++ AdminCodeCall.generate "c" 5 :: [.verify "d" 2] ++ [.verify "c" 60005])).1 =
        (replay initialAdminCodeCache ([AdminCodeCall.generate "d" 1] ++ AdminCodeCall.generate "c" 5 ::
          [.verify "d" 2])).1 ++ [.accepted "c" 60005] := by
  have few : ([AdminCodeCall.generate "d" 1] ++ AdminCodeCall.generate "c" 5 :: [.verify "d" 2]).countP
      AdminCodeCall.generates ≤ adminCodeCacheCapacity := by decide
  have untouched : ∀ call ∈ [AdminCodeCall.verify "d" 2], call.code ≠ "c" := by decide
  have prompt : (60005 : Timestamp) - 5 ≤ adminCodeExpirationTimeout := by decide
  exact ⟨few, untouched, by decide, prompt, prompt_code_accepted few untouched (by decide) prompt⟩

theorem replay_append (cache : AdminCodeCache) :
    ∀ first second : List AdminCodeCall, replay cache (first ++ second) =
      ((replay cache first).1 ++ (replay (replay cache first).2 second).1,
        (replay (replay cache first).2 second).2)
  | [], _ => rfl
  | call :: first, second => by
    rw [List.cons_append]
    simp only [replay]
    rw [replay_append _ first second]
    rfl

/-- Generations alone set their codes one after another. -/
theorem replay_generates (cache : AdminCodeCache) :
    ∀ codes : List (AdminCode × Timestamp),
      (replay cache (codes.map fun code => .generate code.1 code.2)).2 =
        codes.foldl (fun cache code => cache.set code.1 code.2) cache
  | [] => rfl
  | code :: codes => by
    simp only [List.map_cons, replay, step, generateAdminCode_run, List.foldl_cons]
    exact replay_generates _ codes

/-- Fifty codes, distinct from each other and from `"c"`, requested at time `1`. -/
def floodCodes : List (AdminCode × Timestamp) :=
  (List.range 50).map fun n => (⟨List.replicate n 'x'⟩, 1)

end Ceramic.AdminCodes
