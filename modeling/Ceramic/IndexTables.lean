import Ceramic.Json

/-! The rows `DatabaseIndexApi.indexStream` keeps in a model's table, on the Postgres and the
SQLite backend.

A write is `insert(indexedData).onConflict('stream_id').merge(toMerge)`, where `toMerge` is
`indexedData` without `created_at`. knex stores an `undefined` property of an insert as NULL
but leaves it out of a merge, so a column whose new value is `undefined` keeps what it held.
On both backends a relation field the content no longer has is `undefined`; on SQLite
`asTimestamp` also turns a `null` anchor time into `undefined`. `row_column_settles` gives
every column of a row after any sequence of writes; `created_at_first_write` and
`postgres_base_columns_latest` are what the writes do get right. -/
namespace Ceramic.IndexTables
open Ceramic.Json

/-- A `StreamID`, kept as its canonical base36 string: `StreamID.equals` and `toString` agree
on it. -/
structure StreamID where
  toString : String
  deriving DecidableEq, Repr

/-- A column of a model table. `relation field` is `addColumnPrefix(field)`, which names no
other column. -/
inductive Column where
  | stream_id
  | controller_did
  | stream_content
  | tip
  | last_anchored_at
  | first_anchored_at
  | created_at
  | updated_at
  | relation (field : String)
  deriving DecidableEq, Repr

/-- A stored value: text, a time (a `Date`, or SQLite's milliseconds), or a JSON value. -/
inductive SqlValue where
  | text (s : String)
  | time (ms : Int)
  | json (v : JsValue)
  deriving DecidableEq, Repr

/-- A property of the object handed to knex. -/
inductive Cell where
  | undefined
  | null
  | value (v : SqlValue)
  deriving DecidableEq, Repr

/-- A JavaScript object of cells, in property order. -/
abbrev Record := List (Column × Cell)

/-- `record[column] = cell`: an existing property is replaced in place, a new one appended. -/
def assign : Record → Column → Cell → Record
  | [], column, cell => [(column, cell)]
  | (key, old) :: rest, column, cell =>
    if key = column then (column, cell) :: rest else (key, old) :: assign rest column cell

/-- A stored row; `none` is NULL. -/
abbrev Row := Column → Option SqlValue

/-- A model table: its rows, by `stream_id`. -/
abbrev Table := AList fun _ : String => Row

/-- The row an `insert` stores: an absent, `undefined` or `null` property is NULL. -/
def insertRow (data : Record) : Row := fun column =>
  match data.lookup column with
  | some (.value v) => some v
  | _ => none

/-- The row a `merge` leaves: knex drops `undefined` properties from the update. -/
def mergeRow (row : Row) (updates : Record) : Row := fun column =>
  match updates.lookup column with
  | some (.value v) => some v
  | some .null => none
  | some .undefined | none => row column

/-- `insert(data).onConflict('stream_id').merge(updates)`, where `key` is the `stream_id` of
`data`. -/
def upsert (table : Table) (key : String) (data updates : Record) : Table :=
  table.insert key <|
    match table.lookup key with
    | none => insertRow data
    | some row => mergeRow row updates

/-! ## `getIndexedData` -/

/-- `IndexStreamArgs & { createdAt?: Date; updatedAt?: Date }`. Times are milliseconds;
`lastAnchor` and `firstAnchor` are `Date | null`, `createdAt` and `updatedAt` are optional. -/
structure IndexStreamArgs where
  streamID : StreamID
  model : StreamID
  controller : String
  streamContent : List (String × JsValue)
  tip : String
  lastAnchor : Option Int
  firstAnchor : Option Int
  createdAt : Option Int
  updatedAt : Option Int
  deriving DecidableEq, Repr

/-- The two index backends. -/
inductive Backend where
  | postgres
  | sqlite
  deriving DecidableEq, Repr

/-- A `Date | null` property. -/
def dateCell : Option Int → Cell
  | some ms => .value (.time ms)
  | none => .null

/-- `asTimestamp`: a `Date`, always truthy, gives its milliseconds; `null` and `undefined`
give `undefined`. -/
def asTimestamp (input : Option Int) : Option Int := input

/-- A `number | undefined` property. -/
def numberCell : Option Int → Cell
  | some ms => .value (.time ms)
  | none => .undefined

/-- `asTimestamp(date) || now`: `undefined` and the falsy `0` give `now`. -/
def orNow (now : Int) : Option Int → Int
  | some ms => if ms ≠ 0 then ms else now
  | none => now

/-- `PostgresIndexApi.getIndexedData`, with `now()` reading `now`. -/
def postgresIndexedData (now : Int) (args : IndexStreamArgs) : Record :=
  [(.stream_id, .value (.text args.streamID.toString)),
    (.controller_did, .value (.text args.controller)),
    (.stream_content, .value (.json (.obj args.streamContent))),
    (.tip, .value (.text args.tip)),
    (.last_anchored_at, dateCell args.lastAnchor),
    (.first_anchored_at, dateCell args.firstAnchor),
    (.created_at, .value (.time (args.createdAt.getD now))),
    (.updated_at, .value (.time (args.updatedAt.getD now)))]

/-- `SqliteIndexApi.getIndexedData`, with `now()` reading `now`. -/
def sqliteIndexedData (now : Int) (args : IndexStreamArgs) : Record :=
  [(.stream_id, .value (.text args.streamID.toString)),
    (.controller_did, .value (.text args.controller)),
    (.stream_content, .value (.text (stringify (.obj args.streamContent)))),
    (.tip, .value (.text args.tip)),
    (.last_anchored_at, numberCell (asTimestamp args.lastAnchor)),
    (.first_anchored_at, numberCell (asTimestamp args.firstAnchor)),
    (.created_at, .value (.time (orNow now (asTimestamp args.createdAt)))),
    (.updated_at, .value (.time (orNow now (asTimestamp args.updatedAt))))]

/-- `getIndexedData` of the backend. -/
def getIndexedData : Backend → Int → IndexStreamArgs → Record
  | .postgres => postgresIndexedData
  | .sqlite => sqliteIndexedData

/-- `streamContent[field]`: `undefined` when the content has no such property. -/
def contentCell (content : List (String × JsValue)) (field : String) : Cell :=
  match content.lookup field with
  | some .null => .null
  | some v => .value (.json v)
  | none => .undefined

/-- `indexedData` after the loop over relation fields. -/
def indexedData (backend : Backend) (fields : List String) (now : Int) (args : IndexStreamArgs) :
    Record :=
  fields.foldl (fun data field => assign data (.relation field) (contentCell args.streamContent field))
    (getIndexedData backend now args)

/-- `DatabaseIndexApi.indexStream` on the model's table, with `fields` the model's
`modelRelations.get(model) ?? []` and `now()` reading `now`. -/
def indexStream (backend : Backend) (fields : List String) (now : Int) (table : Table)
    (args : IndexStreamArgs) : Table :=
  let data := indexedData backend fields now args
  let toMerge := without data .created_at
  upsert table args.streamID.toString data toMerge

/-! ## What the writes leave -/

theorem lookup_assign (record : Record) (column probe : Column) (cell : Cell) :
    (assign record column cell).lookup probe =
      if probe = column then some cell else record.lookup probe := by
  induction record with
  | nil => simp [assign, lookup_cons_eq_ite]
  | cons property rest ih =>
    obtain ⟨key, old⟩ := property
    by_cases same : key = column
    · subst same
      by_cases here : probe = key <;> simp [assign, lookup_cons_eq_ite, here]
    · simp only [assign, same, ↓reduceIte, lookup_cons_eq_ite, ih]
      by_cases here : probe = key
      · subst here; simp [same]
      · by_cases there : probe = column
        · subst there; rw [if_neg here, if_pos rfl, if_pos rfl]
        · simp [here, there]

theorem getIndexedData_lookup_relation (backend : Backend) (now : Int) (args : IndexStreamArgs)
    (field : String) : (getIndexedData backend now args).lookup (.relation field) = none := by
  cases backend <;>
    simp [getIndexedData, postgresIndexedData, sqliteIndexedData, lookup_cons_eq_ite]

/-- The loop gives each listed relation field its content cell, and nothing else. -/
theorem indexedData_lookup_relation (backend : Backend) (fields : List String) (now : Int)
    (args : IndexStreamArgs) (field : String) :
    (indexedData backend fields now args).lookup (.relation field) =
      if field ∈ fields then some (contentCell args.streamContent field) else none := by
  suffices general : ∀ (fields : List String) (record : Record),
      (fields.foldl (fun data field => assign data (.relation field)
        (contentCell args.streamContent field)) record).lookup (.relation field) =
      if field ∈ fields then some (contentCell args.streamContent field)
      else record.lookup (.relation field) by
    rw [indexedData, general, getIndexedData_lookup_relation]
  intro fields
  induction fields with
  | nil => simp
  | cons first rest ih =>
    intro record
    rw [List.foldl_cons, ih, lookup_assign]
    by_cases later : field ∈ rest <;> by_cases same : field = first <;> simp [later, same]

/-- The loop leaves the base columns as `getIndexedData` computed them. -/
theorem indexedData_lookup_base (backend : Backend) (fields : List String) (now : Int)
    (args : IndexStreamArgs) {column : Column} (base : ∀ field, column ≠ .relation field) :
    (indexedData backend fields now args).lookup column =
      (getIndexedData backend now args).lookup column := by
  unfold indexedData
  generalize getIndexedData backend now args = record
  induction fields generalizing record with
  | nil => rfl
  | cons first rest ih => rw [List.foldl_cons, ih, lookup_assign, if_neg (base first)]

/-- The cell a record gives a column; `undefined` when it has no such property. -/
def cellOf (data : Record) (column : Column) : Cell := (data.lookup column).getD .undefined

/-- What a stored cell holds. -/
def storedValue : Cell → Option SqlValue
  | .value v => some v
  | _ => none

/-- One write of `cell` into a column that held `stored`: `undefined` leaves it. -/
def settleOne (stored : Option SqlValue) : Cell → Option SqlValue
  | .undefined => stored
  | cell => storedValue cell

theorem insertRow_apply (data : Record) (column : Column) :
    insertRow data column = storedValue (cellOf data column) := by
  unfold insertRow cellOf
  cases data.lookup column with
  | none => rfl
  | some cell => cases cell <;> rfl

theorem mergeRow_apply (row : Row) (updates : Record) (column : Column) :
    mergeRow row updates column = settleOne (row column) (cellOf updates column) := by
  unfold mergeRow cellOf
  cases updates.lookup column with
  | none => rfl
  | some cell => cases cell <;> rfl

/-- The row of its stream that one write leaves, from the row it found. -/
def writeRow (backend : Backend) (fields : List String) (row : Option Row) (args : IndexStreamArgs)
    (now : Int) : Row :=
  match row with
  | none => insertRow (indexedData backend fields now args)
  | some row => mergeRow row (without (indexedData backend fields now args) .created_at)

theorem indexStream_lookup (backend : Backend) (fields : List String) (now : Int) (table : Table)
    (args : IndexStreamArgs) (key : String) :
    (indexStream backend fields now table args).lookup key =
      if key = args.streamID.toString then some (writeRow backend fields (table.lookup key) args now)
      else table.lookup key := by
  unfold indexStream upsert
  by_cases same : key = args.streamID.toString
  · subst same; cases table.lookup args.streamID.toString <;> simp [writeRow, AList.lookup_insert]
  · simp [same, AList.lookup_insert_ne]

/-- Every column but `created_at` takes the new cell unless it is `undefined`. -/
theorem writeRow_column (backend : Backend) (fields : List String) (row : Option Row)
    (args : IndexStreamArgs) (now : Int) {column : Column} (other : column ≠ .created_at) :
    writeRow backend fields row args now column =
      settleOne (row.bind (· column)) (cellOf (indexedData backend fields now args) column) := by
  cases row with
  | none =>
    rw [writeRow, insertRow_apply]
    cases cellOf (indexedData backend fields now args) column <;> rfl
  | some row =>
    rw [writeRow, mergeRow_apply]
    simp [cellOf, other]

/-- A merge never touches `created_at`. -/
theorem writeRow_created_at (backend : Backend) (fields : List String) (row : Row)
    (args : IndexStreamArgs) (now : Int) :
    writeRow backend fields (some row) args now .created_at = row .created_at := by
  simp [writeRow, mergeRow]

/-- `indexStream` calls one after another, each with its clock reading. -/
def indexStreams (backend : Backend) (fields : List String) (table : Table)
    (calls : List (IndexStreamArgs × Int)) : Table :=
  calls.foldl (fun table call => indexStream backend fields call.2 table call.1) table

/-- The calls among `calls` for the stream `key`, in order. -/
def callsFor (key : String) (calls : List (IndexStreamArgs × Int)) : List (IndexStreamArgs × Int) :=
  calls.filter fun call => call.1.streamID.toString = key

/-- The row of a stream changes only under the calls for that stream. -/
theorem indexStreams_lookup (backend : Backend) (fields : List String)
    (calls : List (IndexStreamArgs × Int)) (table : Table) (key : String) :
    (indexStreams backend fields table calls).lookup key =
      (callsFor key calls).foldl
        (fun row call => some (writeRow backend fields row call.1 call.2)) (table.lookup key) := by
  induction calls generalizing table with
  | nil => rfl
  | cons call calls ih =>
    rw [indexStreams, List.foldl_cons, ← indexStreams, ih, indexStream_lookup]
    by_cases same : call.1.streamID.toString = key
    · simp [callsFor, same]
    · simp [callsFor, same, Ne.symm same]

theorem foldl_write_isSome (backend : Backend) (fields : List String)
    (writes : List (IndexStreamArgs × Int)) (row : Row) :
    (writes.foldl (fun row call => some (writeRow backend fields row call.1 call.2)) (some row)).isSome := by
  induction writes generalizing row with
  | nil => rfl
  | cons call writes ih => exact ih _

/-- A stream has a row exactly when it had one or some call was for it. -/
theorem indexStreams_isSome (backend : Backend) (fields : List String) (table : Table)
    (calls : List (IndexStreamArgs × Int)) (key : String) :
    ((indexStreams backend fields table calls).lookup key).isSome ↔
      (table.lookup key).isSome ∨ callsFor key calls ≠ [] := by
  rw [indexStreams_lookup]
  cases callsFor key calls with
  | nil => simp
  | cons call writes => simpa using foldl_write_isSome backend fields writes _

/-- Every column but `created_at` of a stream's row, after writes from a table without it:
each write's cell replaces the column unless it is `undefined`. -/
theorem row_column_settles (backend : Backend) (fields : List String) (table : Table)
    (calls : List (IndexStreamArgs × Int)) {key : String} (fresh : table.lookup key = none)
    {column : Column} (other : column ≠ .created_at) :
    ((indexStreams backend fields table calls).lookup key).bind (· column) =
      ((callsFor key calls).map fun call =>
        cellOf (indexedData backend fields call.2 call.1) column).foldl settleOne none := by
  rw [indexStreams_lookup, fresh]
  suffices general : ∀ (writes : List (IndexStreamArgs × Int)) (row : Option Row),
      (writes.foldl (fun row call => some (writeRow backend fields row call.1 call.2)) row).bind
        (· column) =
      (writes.map fun call => cellOf (indexedData backend fields call.2 call.1) column).foldl
        settleOne (row.bind (· column)) from general _ none
  intro writes
  induction writes with
  | nil => intro row; rfl
  | cons call writes ih =>
    intro row
    rw [List.foldl_cons, ih, List.map_cons, List.foldl_cons, Option.some_bind,
      writeRow_column _ _ _ _ _ other]

/-- `created_at` keeps what the first write for the stream computed. -/
theorem created_at_first_write (backend : Backend) (fields : List String) (table : Table)
    (calls : List (IndexStreamArgs × Int)) {key : String} (fresh : table.lookup key = none)
    {first : IndexStreamArgs × Int} {rest : List (IndexStreamArgs × Int)}
    (writes : callsFor key calls = first :: rest) :
    ((indexStreams backend fields table calls).lookup key).bind (· .created_at) =
      storedValue (cellOf (indexedData backend fields first.2 first.1) .created_at) := by
  rw [indexStreams_lookup, fresh, writes, List.foldl_cons]
  suffices kept : ∀ (writes : List (IndexStreamArgs × Int)) (row : Row),
      (writes.foldl (fun row call => some (writeRow backend fields row call.1 call.2))
        (some row)).bind (· .created_at) = row .created_at by
    rw [kept]; exact insertRow_apply _ _
  intro writes
  induction writes with
  | nil => intro row; rfl
  | cons call writes ih => intro row; rw [List.foldl_cons, ih, writeRow_created_at]

/-- After a write whose cell is not `undefined`, the column holds that cell's value. -/
theorem settle_of_last_defined {cells : List Cell} {last : Cell} (ends : cells.getLast? = some last)
    (defined : last ≠ .undefined) (stored : Option SqlValue) :
    cells.foldl settleOne stored = storedValue last := by
  obtain ⟨earlier, rfl⟩ := List.getLast?_eq_some_iff.mp ends
  rw [List.foldl_append, List.foldl_cons, List.foldl_nil]
  cases last with
  | undefined => exact absurd rfl defined
  | null | value _ => rfl

/-- A column whose latest cell is defined holds that cell's value. -/
theorem column_latest_of_defined (backend : Backend) (fields : List String) (table : Table)
    (calls : List (IndexStreamArgs × Int)) {key : String} (fresh : table.lookup key = none)
    {last : IndexStreamArgs × Int} (latest : (callsFor key calls).getLast? = some last)
    {column : Column} (other : column ≠ .created_at)
    (defined : cellOf (indexedData backend fields last.2 last.1) column ≠ .undefined) :
    ((indexStreams backend fields table calls).lookup key).bind (· column) =
      storedValue (cellOf (indexedData backend fields last.2 last.1) column) := by
  rw [row_column_settles backend fields table calls fresh other]
  exact settle_of_last_defined (by rw [List.getLast?_map, latest]; rfl) defined none

/-- Postgres never writes `undefined` into a base column. -/
theorem postgres_base_cell_defined (fields : List String) (now : Int) (args : IndexStreamArgs)
    {column : Column} (base : ∀ field, column ≠ .relation field) :
    cellOf (indexedData .postgres fields now args) column ≠ .undefined := by
  have dates : ∀ date, dateCell date ≠ .undefined := by intro date; cases date <;> simp [dateCell]
  rw [cellOf, indexedData_lookup_base _ _ _ _ base]
  cases column <;> first
    | exact absurd rfl (base _)
    | simp [getIndexedData, postgresIndexedData, lookup_cons_eq_ite, dates]

/-- On Postgres every base column but `created_at` holds what the latest write computed. -/
theorem postgres_base_columns_latest (fields : List String) (table : Table)
    (calls : List (IndexStreamArgs × Int)) {key : String} (fresh : table.lookup key = none)
    {last : IndexStreamArgs × Int} (latest : (callsFor key calls).getLast? = some last)
    {column : Column} (other : column ≠ .created_at) (base : ∀ field, column ≠ .relation field) :
    ((indexStreams .postgres fields table calls).lookup key).bind (· column) =
      storedValue (cellOf (indexedData .postgres fields last.2 last.1) column) :=
  column_latest_of_defined .postgres fields table calls fresh latest other
    (postgres_base_cell_defined fields last.2 last.1 base)

/-- A write of stream `s` with no relation fields, anchored at `1000`. -/
def firstWrite : IndexStreamArgs := ⟨⟨"s"⟩, ⟨"m"⟩, "did:key:a", [], "t1", some 1000, some 1000, none, none⟩

/-- A later write of `s` with no last anchor time. -/
def secondWrite : IndexStreamArgs := { firstWrite with tip := "t2", lastAnchor := none }

/-- Both writes, in order. -/
def sampleWrites : List (IndexStreamArgs × Int) := [(firstWrite, 1), (secondWrite, 2)]

theorem sample_created_at_first_write :
    (∅ : Table).lookup "s" = none ∧ callsFor "s" sampleWrites = (firstWrite, 1) :: [(secondWrite, 2)] ∧
      ((indexStreams .sqlite [] ∅ sampleWrites).lookup "s").bind (· .created_at) =
        storedValue (cellOf (indexedData .sqlite [] 1 firstWrite) .created_at) :=
  have writes : callsFor "s" sampleWrites = (firstWrite, 1) :: [(secondWrite, 2)] := by decide
  ⟨rfl, writes, created_at_first_write .sqlite [] ∅ sampleWrites rfl writes⟩

theorem sample_postgres_anchor_latest :
    (∅ : Table).lookup "s" = none ∧ (callsFor "s" sampleWrites).getLast? = some (secondWrite, 2) ∧
      Column.last_anchored_at ≠ .created_at ∧ (∀ field, Column.last_anchored_at ≠ .relation field) ∧
      ((indexStreams .postgres [] ∅ sampleWrites).lookup "s").bind (· .last_anchored_at) =
        storedValue (cellOf (indexedData .postgres [] 2 secondWrite) .last_anchored_at) :=
  have latest : (callsFor "s" sampleWrites).getLast? = some (secondWrite, 2) := by decide
  ⟨rfl, latest, by decide, fun _ => by simp,
    postgres_base_columns_latest [] ∅ sampleWrites rfl latest (by decide) fun _ => by simp⟩

/-- A second write of a stream whose content no longer has the relation field `ref` and whose
last anchor time is gone: the relation column keeps `"x"` on both backends, and on SQLite
`last_anchored_at` keeps the first write's time, where the latest write computed `undefined`. -/
theorem rewrite_keeps_dropped_values :
    let first : IndexStreamArgs :=
      ⟨⟨"s"⟩, ⟨"m"⟩, "did:key:a", [("ref", .str "x")], "t1", some 1000, some 1000, none, none⟩
    let second : IndexStreamArgs := { first with streamContent := [], tip := "t2", lastAnchor := none }
    ((indexStreams .postgres ["ref"] ∅ [(first, 1), (second, 2)]).lookup "s").bind
        (· (.relation "ref")) = some (.json (.str "x")) ∧
    ((indexStreams .sqlite ["ref"] ∅ [(first, 1), (second, 2)]).lookup "s").bind
        (· (.relation "ref")) = some (.json (.str "x")) ∧
    ((indexStreams .sqlite ["ref"] ∅ [(first, 1), (second, 2)]).lookup "s").bind
        (· .last_anchored_at) = some (.time 1000) ∧
    cellOf (indexedData .postgres ["ref"] 2 second) (.relation "ref") = .undefined ∧
    cellOf (indexedData .sqlite ["ref"] 2 second) .last_anchored_at = .undefined := by
  decide

end Ceramic.IndexTables
