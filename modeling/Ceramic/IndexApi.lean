import Ceramic.IndexTables
import Ceramic.Program

/-! The index registry behind `LocalIndexApi`: `DatabaseIndexApi`'s config table
`ceramic_models`, its in-memory `indexedModels` and `modelRelations`, and the model tables.

Each method is an `EStateM` program over the registry: a throw keeps the writes made before it,
as an `async` method does, and each database statement is one step. What a call consults
outside the index (the stream repository, the `stream-model` version check, the tables manager,
the sync API, the clock) is given per call in `Collaborators`, so that it may change between
calls. `count_run` and `page_run` say that a query reaches a model table only once
`assertModelQueryable` has passed (`queries_read_only_queryable`). -/
namespace Ceramic.IndexApi
open Ceramic.Json Ceramic.IndexTables

/-- `IndexModelArgs`: a model, and the keys of its `relations` when its content has them. -/
structure IndexModelArgs where
  model : StreamID
  relations : Option (List String)
  deriving DecidableEq, Repr

/-- The part of a Model stream's content that `_getIndexModelArgs` reads. -/
structure ModelDefinition where
  version : String
  relations : Option (List String)
  deriving DecidableEq, Repr

/-- A loaded Model stream: its content, and `next.content` for an unanchored update. -/
structure ModelState where
  content : ModelDefinition
  next : Option ModelDefinition
  deriving DecidableEq, Repr

/-- `BaseQuery`: the model by its string form, which is all `count` and `page` use of it. -/
structure BaseQuery where
  model : String
  account : Option String
  filter : Option (List (String × JsValue))
  deriving DecidableEq, Repr

/-- `PaginationQuery`. -/
structure PaginationQuery extends BaseQuery where
  first : Option Nat
  last : Option Nat
  after : Option String
  before : Option String
  deriving DecidableEq, Repr

/-- `PageInfo`. -/
structure PageInfo where
  hasNextPage : Bool
  hasPreviousPage : Bool
  startCursor : Option String
  endCursor : Option String
  deriving DecidableEq, Repr

/-- `Page`: edges of a cursor and a node. -/
structure Page (α : Type) where
  edges : List (String × α)
  pageInfo : PageInfo
  deriving DecidableEq, Repr

/-- The fixed setup of a `DatabaseIndexApi`. -/
structure IndexConfig where
  backend : Backend
  allowQueriesBeforeHistoricalSync : Bool
  /-- The default of `ceramic_models.is_indexed`, which the row insert of `indexModels` leaves
  to the table; the table is declared outside the source given. -/
  isIndexedDefault : Bool
  /-- `StreamID.type`. -/
  streamType : StreamID → Nat
  /-- `Model.STREAM_TYPE_ID`. -/
  modelStreamTypeId : Nat
  /-- `Model.MODEL`, the meta-model's stream id. -/
  metaModel : StreamID

/-- What a call consults outside the index, as it is at that call. -/
structure Collaborators where
  /-- `repository.load` of a Model stream; `.error` when it throws. -/
  load : StreamID → Except String ModelState
  /-- `Model.assertVersionValid(content, 'major')`. -/
  assertVersionValid : ModelDefinition → Except String Unit
  /-- `tablesManager.initConfigTables(network)`. -/
  initConfigTables : Except String Unit
  /-- `tablesManager.initMidTables(models)`, then `verifyTables(models)`. -/
  prepareTables : List IndexModelArgs → Except String Unit
  /-- `syncApi.syncComplete`. -/
  syncComplete : String → Bool
  /-- `now()`. -/
  now : Int
  /-- `InsertionOrder.page` on a model table. -/
  insertionOrderPage : Table → PaginationQuery → Page StreamID
  /-- `repository.streamState`, a stream state as JSON. -/
  streamState : StreamID → Option JsValue

/-- `ceramic_models`: `is_indexed` of each row, by `model`. -/
abbrev ConfigTable := AList fun _ : StreamID => Bool

/-- `DatabaseIndexApi`'s state, with the tables it writes. -/
structure IndexState where
  config : ConfigTable
  indexedModels : List StreamID
  /-- `modelRelations`, by `model.toString()`. -/
  modelRelations : StreamID → Option (List String)
  /-- The model tables, by `asTableName(model)`. -/
  tables : String → Table

/-- What the methods throw. -/
inductive IndexError where
  | notAModel (model : StreamID)
  | reindex (model : StreamID)
  | notIndexed (model : String)
  | queryNotAvailable (model : String)
  /-- Thrown by a collaborator or by the database. -/
  | external (message : String)
  /-- The `TypeError` of calling a method of an undefined `databaseIndexApi`. -/
  | notConfigured
  deriving DecidableEq, Repr

/-- The messages the source gives its errors. -/
def IndexError.message : IndexError → String
  | .notAModel model => "Cannot index " ++ model.toString ++ ", it is not a Model StreamID"
  | .reindex model => "Cannot re-index model " ++ model.toString ++ ", data may not be up-to-date"
  | .notIndexed model => "Query failed: Model " ++ model ++ " is not indexed on this node"
  | .queryNotAvailable _ => "IndexQueryNotAvailableError"
  | .external message => message
  | .notConfigured => "TypeError"

/-! ## `DatabaseIndexApi` -/

/-- `select('model').where({ is_indexed: flag })`, in table order. -/
def modelsWhere (config : ConfigTable) (flag : Bool) : List StreamID :=
  config.entries.filterMap fun row => if row.2 = flag then some row.1 else none

/-- One row of an upsert on `ceramic_models`: a new row takes `inserted`, an existing one
`merged`. -/
def upsertRow (inserted merged : Bool) (config : ConfigTable) (model : StreamID) : ConfigTable :=
  config.insert model (if (config.lookup model).isSome then merged else inserted)

/-- `insert(rows).onConflict('model').merge({ is_indexed: merged, ... })` on `ceramic_models`,
row after row. Postgres refuses a statement that would touch one row twice. -/
def upsertModels (backend : Backend) (models : List StreamID) (inserted merged : Bool)
    (config : ConfigTable) : Except IndexError ConfigTable :=
  if backend = .postgres ∧ ¬models.Nodup then
    .error (.external "ON CONFLICT DO UPDATE command cannot affect row a second time")
  else
    .ok (models.foldl (upsertRow inserted merged) config)

/-- The loop body of `indexModels` after the sync check: push the model unless it is there,
and record its relation fields. -/
def IndexState.record (s : IndexState) (modelArgs : IndexModelArgs) : IndexState :=
  { s with
    indexedModels := if modelArgs.model ∈ s.indexedModels then s.indexedModels
      else s.indexedModels ++ [modelArgs.model]
    modelRelations := match modelArgs.relations with
      | some relations => Function.update s.modelRelations modelArgs.model (some relations)
      | none => s.modelRelations }

namespace DatabaseIndexApi

variable (cfg : IndexConfig) (env : Collaborators)

/-- `indexModelsInDatabase`. -/
def indexModelsInDatabase (models : List IndexModelArgs) : EStateM IndexError IndexState Unit := do
  if models.length = 0 then return
  liftExcept ((env.prepareTables models).mapError .external)
  let s ← get
  let config ← liftExcept <|
    upsertModels cfg.backend (models.map (·.model)) cfg.isIndexedDefault true s.config
  set { s with config }

/-- `assertNoOngoingSyncForModel`. -/
def assertNoOngoingSyncForModel (model : String) : Except IndexError Unit :=
  if !cfg.allowQueriesBeforeHistoricalSync && !env.syncComplete model then
    .error (.queryNotAvailable model)
  else .ok ()

/-- The loop of `indexModels` after the database write. -/
def recordIndexedModels : List IndexModelArgs → EStateM IndexError IndexState Unit
  | [] => pure ()
  | modelArgs :: rest => do
    liftExcept (assertNoOngoingSyncForModel cfg env modelArgs.model.toString)
    modify fun s => s.record modelArgs
    recordIndexedModels rest

/-- `DatabaseIndexApi.indexModels`. -/
def indexModels (models : List IndexModelArgs) : EStateM IndexError IndexState Unit := do
  indexModelsInDatabase cfg env models
  recordIndexedModels cfg env models

/-- `stopIndexingModelsInDatabase`. -/
def stopIndexingModelsInDatabase (models : List StreamID) : EStateM IndexError IndexState Unit := do
  if models.length = 0 then return
  let s ← get
  let config ← liftExcept (upsertModels cfg.backend models false false s.config)
  set { s with config }

/-- `DatabaseIndexApi.stopIndexingModels`. -/
def stopIndexingModels (models : List StreamID) : EStateM IndexError IndexState Unit := do
  stopIndexingModelsInDatabase cfg models
  modify fun s => { s with indexedModels := s.indexedModels.filter fun model => model ∉ models }

/-- `getModelsNoLongerIndexed`. -/
def getModelsNoLongerIndexed : EStateM IndexError IndexState (List StreamID) := do
  pure (modelsWhere (← get).config false)

/-- `DatabaseIndexApi.init`. -/
def init : EStateM IndexError IndexState Unit := do
  liftExcept (env.initConfigTables.mapError .external)
  modify fun s => { s with indexedModels := modelsWhere s.config true }

/-- `DatabaseIndexApi.indexStream`, into the table of the stream's model. -/
def indexStream (args : IndexStreamArgs) : EStateM IndexError IndexState Unit :=
  modify fun s => { s with
    tables := Function.update s.tables args.model.toString <|
      IndexTables.indexStream cfg.backend ((s.modelRelations args.model).getD []) env.now
        (s.tables args.model.toString) args }

/-- `assertModelIsIndexed`, comparing string forms. -/
def assertModelIsIndexed (model : String) : EStateM IndexError IndexState Unit := do
  if (← get).indexedModels.any (fun indexedModel => indexedModel.toString = model) then pure ()
  else throw (.notIndexed model)

/-- `assertModelQueryable`. -/
def assertModelQueryable (model : String) : EStateM IndexError IndexState Unit := do
  assertModelIsIndexed model
  liftExcept (assertNoOngoingSyncForModel cfg env model)

/-- Whether a row meets the `count` query's conditions: `controller_did` for a non-empty
account, and each filter entry on its relation column. -/
def matchesQuery (query : BaseQuery) (row : Row) : Bool :=
  (match query.account with
    | some account => account == "" || row .controller_did == some (.text account)
    | none => true) &&
  (query.filter.getD []).all fun entry => row (.relation entry.1) == some (.json entry.2)

/-- What the `count` query returns on a model table. -/
def countRows (table : Table) (query : BaseQuery) : Nat :=
  (table.entries.filter fun row => matchesQuery query row.2).length

/-- `DatabaseIndexApi.count`. -/
def count (query : BaseQuery) : EStateM IndexError IndexState Nat := do
  assertModelQueryable cfg env query.model
  pure (countRows ((← get).tables query.model) query)

/-- `DatabaseIndexApi.page`. -/
def page (query : PaginationQuery) : EStateM IndexError IndexState (Page StreamID) := do
  assertModelQueryable cfg env query.model
  pure (env.insertionOrderPage ((← get).tables query.model) query)

end DatabaseIndexApi

/-! ## `LocalIndexApi` -/

/-- `LocalIndexApi`'s registry: `none` when `makeIndexApi` gave no `DatabaseIndexApi`. -/
abbrev LocalState := Option IndexState

/-- `this.databaseIndexApi?.method()`: `undefined` when no database is configured. -/
def optionalCall {α : Type} (method : EStateM IndexError IndexState α) :
    EStateM IndexError LocalState (Option α)
  | none => .ok none none
  | some s => match method.run s with
    | .ok a s => .ok (some a) (some s)
    | .error e s => .error e (some s)

/-- `this.databaseIndexApi.method()`: a `TypeError` when no database is configured. -/
def requiredCall {α : Type} (method : EStateM IndexError IndexState α) :
    EStateM IndexError LocalState α
  | none => .error .notConfigured none
  | some s => match method.run s with
    | .ok a s => .ok a (some s)
    | .error e s => .error e (some s)

theorem optionalCall_run {α : Type} (method : EStateM IndexError IndexState α) (s : IndexState) :
    (optionalCall method).run (some s) = match method.run s with
      | .ok a s => .ok (some a) (some s)
      | .error e s => .error e (some s) := rfl

theorem requiredCall_run {α : Type} (method : EStateM IndexError IndexState α) (s : IndexState) :
    (requiredCall method).run (some s) = match method.run s with
      | .ok a s => .ok a (some s)
      | .error e s => .error e (some s) := rfl

/-- A restarted node: a new `DatabaseIndexApi` over the same database. -/
def IndexState.restart (s : IndexState) : IndexState :=
  { s with indexedModels := [], modelRelations := fun _ => none }

namespace LocalIndexApi

variable (cfg : IndexConfig) (env : Collaborators)

/-- `_getIndexModelArgs`. -/
def getIndexModelArgs (modelStreamId : StreamID) : Except IndexError IndexModelArgs :=
  if cfg.streamType modelStreamId ≠ cfg.modelStreamTypeId ∧ modelStreamId ≠ cfg.metaModel then
    .error (.notAModel modelStreamId)
  else if cfg.streamType modelStreamId = cfg.modelStreamTypeId then do
    let modelState ← (env.load modelStreamId).mapError .external
    let content := modelState.next.getD modelState.content
    (env.assertVersionValid content).mapError .external
    pure ⟨modelStreamId, content.relations⟩
  else .ok ⟨modelStreamId, none⟩

/-- The loop of `indexModels`: each model's `IndexModelArgs`, refusing one the config table
marks as no longer indexed. -/
def collectIndexModelArgs (modelsNoLongerIndexed : Option (List StreamID)) :
    List StreamID → Except IndexError (List IndexModelArgs)
  | [] => .ok []
  | modelStreamId :: rest => do
    let indexModelArgs ← getIndexModelArgs cfg env modelStreamId
    if modelsNoLongerIndexed.any (modelStreamId ∈ ·) then throw (.reindex modelStreamId)
    let indexModelsArgs ← collectIndexModelArgs modelsNoLongerIndexed rest
    pure (indexModelArgs :: indexModelsArgs)

/-- `LocalIndexApi.indexModels`. -/
def indexModels (models : Option (List StreamID)) : EStateM IndexError LocalState Unit := do
  let some models := models | return
  let modelsNoLongerIndexed ← optionalCall DatabaseIndexApi.getModelsNoLongerIndexed
  let indexModelsArgs ← liftExcept (collectIndexModelArgs cfg env modelsNoLongerIndexed models)
  let _ ← optionalCall (DatabaseIndexApi.indexModels cfg env indexModelsArgs)

/-- `LocalIndexApi.stopIndexingModels`. -/
def stopIndexingModels (models : List StreamID) : EStateM IndexError LocalState Unit := do
  let _ ← optionalCall (DatabaseIndexApi.stopIndexingModels cfg models)

/-- `LocalIndexApi.indexedModels`. -/
def indexedModels : LocalState → List StreamID
  | none => []
  | some s => s.indexedModels

/-- `LocalIndexApi.init`: load the indexed models, then index them again. -/
def init : EStateM IndexError LocalState Unit := do
  if (← get).isNone then return
  requiredCall (DatabaseIndexApi.init env)
  indexModels cfg env (some (indexedModels (← get)))

/-- `LocalIndexApi.shouldIndexStream`. -/
def shouldIndexStream (model : StreamID) : LocalState → Bool
  | none => false
  | some s => model ∈ s.indexedModels

/-- `LocalIndexApi.indexStream`. -/
def indexStream (args : IndexStreamArgs) : EStateM IndexError LocalState Unit := do
  if !shouldIndexStream args.model (← get) then return
  requiredCall (DatabaseIndexApi.indexStream cfg env args)

/-- `LocalIndexApi.count`. -/
def count (query : BaseQuery) : EStateM IndexError LocalState Nat :=
  requiredCall (DatabaseIndexApi.count cfg env query)

/-- The page `query` answers: each node is the stream state the repository holds, or `null`. -/
def withStreamStates (page : Page StreamID) : Page (Option JsValue) :=
  ⟨page.edges.map fun edge => (edge.1, env.streamState edge.2), page.pageInfo⟩

/-- The empty page of an index that is not configured. -/
def emptyPage : Page (Option JsValue) := ⟨[], ⟨false, false, none, none⟩⟩

/-- `LocalIndexApi.query`. -/
def query (query : PaginationQuery) : EStateM IndexError LocalState (Page (Option JsValue)) := do
  match ← optionalCall (DatabaseIndexApi.page cfg env query) with
  | some page => pure (withStreamStates env page)
  | none => pure emptyPage

end LocalIndexApi

/-! ## Queries are gated -/

section Queries

variable (cfg : IndexConfig) (env : Collaborators)

/-- The model is indexed, compared by string form, and either queries before historical sync
are allowed or the sync API reports the model's historical sync complete. -/
def Queryable (s : IndexState) (model : String) : Prop :=
  (∃ indexed ∈ s.indexedModels, indexed.toString = model) ∧
    (cfg.allowQueriesBeforeHistoricalSync = true ∨ env.syncComplete model = true)

theorem assertModelQueryable_run (s : IndexState) (model : String) :
    (DatabaseIndexApi.assertModelQueryable cfg env model).run s =
      if s.indexedModels.any (fun indexed => indexed.toString = model) then
        if !cfg.allowQueriesBeforeHistoricalSync && !env.syncComplete model then
          .error (.queryNotAvailable model) s
        else .ok () s
      else .error (.notIndexed model) s := by
  simp only [DatabaseIndexApi.assertModelQueryable, DatabaseIndexApi.assertModelIsIndexed,
    DatabaseIndexApi.assertNoOngoingSyncForModel, run_bind, run_get]
  by_cases found : s.indexedModels.any (fun indexed => indexed.toString = model) = true <;>
    by_cases blocked : (!cfg.allowQueriesBeforeHistoricalSync && !env.syncComplete model) = true <;>
    simp [found, blocked]

theorem queryable_iff (s : IndexState) (model : String) :
    Queryable cfg env s model ↔
      s.indexedModels.any (fun indexed => indexed.toString = model) = true ∧
        (!cfg.allowQueriesBeforeHistoricalSync && !env.syncComplete model) = false := by
  unfold Queryable
  cases cfg.allowQueriesBeforeHistoricalSync <;> cases env.syncComplete model <;> simp

/-- On a configured index, `count` and `query` read the table of `query.model` when it is
queryable, and otherwise throw the not-indexed error or `IndexQueryNotAvailableError` with a
result that no model table affects. -/
theorem queries_read_only_queryable (s : IndexState) (query : PaginationQuery) :
    (Queryable cfg env s query.model →
      (LocalIndexApi.count cfg env query.toBaseQuery).run (some s) =
          .ok (DatabaseIndexApi.countRows (s.tables query.model) query.toBaseQuery) (some s) ∧
      (LocalIndexApi.query cfg env query).run (some s) =
          .ok (LocalIndexApi.withStreamStates env
            (env.insertionOrderPage (s.tables query.model) query)) (some s)) ∧
    (¬Queryable cfg env s query.model →
      ∃ e, (e = .notIndexed query.model ∨ e = .queryNotAvailable query.model) ∧
        ∀ tables : String → Table,
          (LocalIndexApi.count cfg env query.toBaseQuery).run (some { s with tables }) =
              .error e (some { s with tables }) ∧
          (LocalIndexApi.query cfg env query).run (some { s with tables }) =
              .error e (some { s with tables })) := by
  simp only [queryable_iff, LocalIndexApi.count, LocalIndexApi.query, DatabaseIndexApi.count,
    DatabaseIndexApi.page, requiredCall_run, run_bind, optionalCall_run, assertModelQueryable_run]
  by_cases found : s.indexedModels.any (fun indexed => indexed.toString = query.model) = true <;>
    by_cases blocked :
      (!cfg.allowQueriesBeforeHistoricalSync && !env.syncComplete query.model) = true
  · exact ⟨fun ⟨_, open_⟩ => absurd open_ (by simp [blocked]),
      fun _ => ⟨_, .inr rfl, fun _ => by simp [found, blocked]⟩⟩
  · exact ⟨fun _ => by simp [found, blocked], fun refused => absurd ⟨found, by simpa using blocked⟩ refused⟩
  · exact ⟨fun ⟨indexed, _⟩ => absurd indexed found,
      fun _ => ⟨_, .inl rfl, fun _ => by simp [found]⟩⟩
  · exact ⟨fun ⟨indexed, _⟩ => absurd indexed found,
      fun _ => ⟨_, .inl rfl, fun _ => by simp [found]⟩⟩

end Queries

end Ceramic.IndexApi
