import Ceramic.IndexApi

/-! Sequential runs of `LocalIndexApi`, restarts included, over a database whose config table
`ceramic_models` persists.

`Move` says once what a call can do to a configured registry: rewrite model tables, forget the
in-memory registry on a restart, reload `indexedModels` from the config table, upsert and record
the models of an `indexModels` call none of which has an `is_indexed = false` row, or upsert and
drop the models of a `stopIndexingModels` call. `step_moves` shows that every call, whether it
returns or throws, is a sequence of moves, so an invariant is proved once per move and carried
along any run by `replay_moves`. When the config table's default for a model is indexed, every
model the in-memory registry lists has an `is_indexed = true` row after any run
(`listed_models_have_true_rows`). -/
namespace Ceramic.IndexRuns
open Ceramic.Json Ceramic.IndexTables Ceramic.IndexApi

/-! ## Runs -/

/-- A call on `LocalIndexApi`, or a restart of the node over the same database. -/
inductive IndexCall where
  | init
  | indexModels (models : Option (List StreamID))
  | stopIndexingModels (models : List StreamID)
  | indexStream (args : IndexStreamArgs)
  | count (query : BaseQuery)
  | query (query : PaginationQuery)
  | restart

/-- The program of one call; its result is dropped. -/
def IndexCall.program (cfg : IndexConfig) (env : Collaborators) :
    IndexCall → EStateM IndexError LocalState Unit
  | .init => LocalIndexApi.init cfg env
  | .indexModels models => LocalIndexApi.indexModels cfg env models
  | .stopIndexingModels models => LocalIndexApi.stopIndexingModels cfg models
  | .indexStream args => LocalIndexApi.indexStream cfg env args
  | .count baseQuery => LocalIndexApi.count cfg env baseQuery >>= fun _ => pure ()
  | .query pageQuery => LocalIndexApi.query cfg env pageQuery >>= fun _ => pure ()
  | .restart => modify (Option.map IndexState.restart)

/-- One call of a run, with the collaborators as they are at that call. -/
def step (cfg : IndexConfig) (s : LocalState) (call : IndexCall × Collaborators) : LocalState :=
  leaves ((call.1.program cfg call.2).run s)

/-- A run of calls. -/
def replay (cfg : IndexConfig) (s : LocalState) (calls : List (IndexCall × Collaborators)) :
    LocalState :=
  calls.foldl (step cfg) s

/-! ## Spec lemmas -/

theorem mem_modelsWhere {config : ConfigTable} {flag : Bool} {model : StreamID} :
    model ∈ modelsWhere config flag ↔ config.lookup model = some flag := by
  simp only [modelsWhere, List.mem_filterMap, Option.ite_none_right_eq_some, Option.some.injEq]
  constructor
  · rintro ⟨⟨_, _⟩, mem, rfl, rfl⟩
    exact AList.mem_lookup_iff.mpr mem
  · intro found
    exact ⟨⟨model, flag⟩, AList.mem_lookup_iff.mp found, rfl, rfl⟩

theorem modelsWhere_nodup (config : ConfigTable) (flag : Bool) :
    (modelsWhere config flag).Nodup :=
  (List.nodupKeys_iff_pairwise.mp config.nodupKeys).filterMap _ fun row row' apart _ mem _ mem' => by
    simp only [Option.mem_def, Option.ite_none_right_eq_some, Option.some.injEq] at mem mem'
    rw [← mem.2, ← mem'.2]
    exact apart

section Upsert

variable {backend : Backend} {inserted merged : Bool} {x : StreamID}

private theorem foldl_upsertRow_of_not_mem :
    ∀ {models : List StreamID} {config : ConfigTable}, x ∉ models →
      (models.foldl (upsertRow inserted merged) config).lookup x = config.lookup x
  | [], _, _ => rfl
  | _ :: _, _, absent => by
    rw [List.mem_cons, not_or] at absent
    rw [List.foldl_cons, foldl_upsertRow_of_not_mem absent.2, upsertRow,
      AList.lookup_insert_ne absent.1]

private theorem foldl_upsertRow_of_mem :
    ∀ {models : List StreamID} {config : ConfigTable}, x ∈ models →
      (models.foldl (upsertRow inserted merged) config).lookup x ∈ [some inserted, some merged]
  | y :: ys, config, mem => by
    rw [List.foldl_cons]
    by_cases later : x ∈ ys
    · exact foldl_upsertRow_of_mem later
    · obtain rfl : x = y := by simpa [later] using mem
      rw [foldl_upsertRow_of_not_mem later, upsertRow, AList.lookup_insert]
      split <;> simp

variable {models : List StreamID} {config config' : ConfigTable}

theorem upsertModels_ok (upsert : upsertModels backend models inserted merged config = .ok config') :
    config' = models.foldl (upsertRow inserted merged) config := by
  unfold upsertModels at upsert
  split at upsert
  · cases upsert
  · exact (Except.ok.inj upsert).symm

theorem upsertModels_lookup_of_not_mem
    (upsert : upsertModels backend models inserted merged config = .ok config') (absent : x ∉ models) :
    config'.lookup x = config.lookup x := by
  rw [upsertModels_ok upsert, foldl_upsertRow_of_not_mem absent]

theorem upsertModels_lookup_of_mem
    (upsert : upsertModels backend models inserted merged config = .ok config') (mem : x ∈ models) :
    config'.lookup x ∈ [some inserted, some merged] := by
  rw [upsertModels_ok upsert]
  exact foldl_upsertRow_of_mem mem

theorem upsertModels_nil (config : ConfigTable) :
    upsertModels backend [] inserted merged config = .ok config := by
  simp [upsertModels]

end Upsert

section Record

theorem mem_record {s : IndexState} {modelArgs : IndexModelArgs} {x : StreamID} :
    x ∈ (s.record modelArgs).indexedModels ↔ x ∈ s.indexedModels ∨ x = modelArgs.model := by
  unfold IndexState.record
  split
  · exact ⟨.inl, by rintro (mem | rfl) <;> assumption⟩
  · simp

theorem record_nodup {s : IndexState} (modelArgs : IndexModelArgs) (nodup : s.indexedModels.Nodup) :
    (s.record modelArgs).indexedModels.Nodup := by
  unfold IndexState.record
  split
  · exact nodup
  · exact nodup.append (List.nodup_singleton _) (by simpa)

@[simp] theorem foldl_record_config (done : List IndexModelArgs) (s : IndexState) :
    (done.foldl IndexState.record s).config = s.config := by
  induction done generalizing s with
  | nil => rfl
  | cons _ _ ih => exact ih _

theorem mem_foldl_record {done : List IndexModelArgs} {s : IndexState} {x : StreamID} :
    x ∈ (done.foldl IndexState.record s).indexedModels ↔
      x ∈ s.indexedModels ∨ x ∈ done.map (·.model) := by
  induction done generalizing s with
  | nil => simp
  | cons _ _ ih => rw [List.foldl_cons, ih, mem_record, List.map_cons, List.mem_cons]; tauto

theorem foldl_record_nodup (done : List IndexModelArgs) {s : IndexState}
    (nodup : s.indexedModels.Nodup) : (done.foldl IndexState.record s).indexedModels.Nodup := by
  induction done generalizing s with
  | nil => exact nodup
  | cons modelArgs _ ih => exact ih (record_nodup modelArgs nodup)

end Record

section Collect

variable (cfg : IndexConfig) (env : Collaborators)

theorem getIndexModelArgs_model {model : StreamID} {modelArgs : IndexModelArgs}
    (h : LocalIndexApi.getIndexModelArgs cfg env model = .ok modelArgs) : modelArgs.model = model := by
  unfold LocalIndexApi.getIndexModelArgs at h
  split_ifs at h
  · cases load : env.load model with
    | error => simp [load, Except.mapError, bind, Except.bind] at h
    | ok modelState =>
      cases version : env.assertVersionValid (modelState.next.getD modelState.content) <;>
        simp [load, version, Except.mapError, bind, Except.bind, pure, Except.pure] at h
      exact h ▸ rfl
  · cases h; rfl

/-- The loop of `indexModels` returns one `IndexModelArgs` per model, in order, and only when
no model is among those no longer indexed. -/
theorem collectIndexModelArgs_ok {noLonger : Option (List StreamID)} :
    ∀ {models : List StreamID} {args : List IndexModelArgs},
      LocalIndexApi.collectIndexModelArgs cfg env noLonger models = .ok args →
      args.map (·.model) = models ∧ ∀ x ∈ models, noLonger.any (x ∈ ·) = false
  | [], _, h => by cases h; simp
  | model :: rest, args, h => by
    simp only [LocalIndexApi.collectIndexModelArgs] at h
    cases found : LocalIndexApi.getIndexModelArgs cfg env model with
    | error => simp [found, bind, Except.bind] at h
    | ok modelArgs =>
      by_cases refused : noLonger.any (model ∈ ·) = true
      · simp [found, refused, bind, Except.bind, throw, throwThe, MonadExceptOf.throw] at h
      · cases collected : LocalIndexApi.collectIndexModelArgs cfg env noLonger rest with
        | error => simp [found, refused, collected, bind, Except.bind, pure, Except.pure] at h
        | ok restArgs =>
          simp [found, refused, collected, bind, Except.bind, pure, Except.pure] at h
          subst h
          obtain ⟨same, fresh⟩ := collectIndexModelArgs_ok collected
          refine ⟨by simp [getIndexModelArgs_model cfg env found, same], ?_⟩
          simpa [refused] using fresh

end Collect

section Database

variable (cfg : IndexConfig) (env : Collaborators)

/-- The push loop records a prefix of its models: all of them when it returns, those before
the first failing sync check when it throws. -/
theorem recordIndexedModels_leaves : ∀ (args : List IndexModelArgs) (s : IndexState),
    ∃ done, done <+: args ∧
      leaves ((DatabaseIndexApi.recordIndexedModels cfg env args).run s) =
        done.foldl IndexState.record s
  | [], _ => ⟨[], List.nil_prefix, rfl⟩
  | modelArgs :: rest, s => by
    cases synced : DatabaseIndexApi.assertNoOngoingSyncForModel cfg env modelArgs.model.toString with
    | error =>
      refine ⟨[], List.nil_prefix, ?_⟩
      simp only [DatabaseIndexApi.recordIndexedModels, leaves_bind, synced, run_liftExcept_error]
      rfl
    | ok =>
      obtain ⟨done, recorded, rest_leaves⟩ := recordIndexedModels_leaves rest (s.record modelArgs)
      refine ⟨modelArgs :: done, List.cons_prefix_cons.mpr ⟨rfl, recorded⟩, ?_⟩
      simpa [DatabaseIndexApi.recordIndexedModels, leaves_bind, synced] using rest_leaves

theorem indexModelsInDatabase_run (args : List IndexModelArgs) (s : IndexState) :
    (DatabaseIndexApi.indexModelsInDatabase cfg env args).run s =
      if args.length = 0 then .ok () s else
      match env.prepareTables args,
          upsertModels cfg.backend (args.map (·.model)) cfg.isIndexedDefault true s.config with
      | .error message, _ => .error (.external message) s
      | .ok (), .error e => .error e s
      | .ok (), .ok config => .ok () { s with config } := by
  simp only [DatabaseIndexApi.indexModelsInDatabase]
  split
  · rfl
  · rcases env.prepareTables args with _ | ⟨⟨⟩⟩
    · rfl
    · simp only [Except.mapError, run_bind, run_pure, run_get, run_liftExcept_ok]
      cases upsertModels cfg.backend (args.map (·.model)) cfg.isIndexedDefault true s.config <;> rfl

/-- `DatabaseIndexApi.indexModels` either leaves the registry as it was, or upserts all its
models and records a prefix of them. -/
theorem indexModels_leaves (args : List IndexModelArgs) (s : IndexState) :
    leaves ((DatabaseIndexApi.indexModels cfg env args).run s) = s ∨
      ∃ config done,
        upsertModels cfg.backend (args.map (·.model)) cfg.isIndexedDefault true s.config = .ok config ∧
        done <+: args ∧
        leaves ((DatabaseIndexApi.indexModels cfg env args).run s) =
          done.foldl IndexState.record { s with config } := by
  rw [DatabaseIndexApi.indexModels, leaves_bind, indexModelsInDatabase_run]
  by_cases empty : args.length = 0
  · obtain rfl := List.length_eq_zero.mp empty
    exact .inl rfl
  · rw [if_neg empty]
    rcases env.prepareTables args with _ | ⟨⟨⟩⟩
    · exact .inl rfl
    · cases upsert : upsertModels cfg.backend (args.map (·.model)) cfg.isIndexedDefault true s.config with
      | error => exact .inl rfl
      | ok config =>
        obtain ⟨done, recorded, recorded_leaves⟩ := recordIndexedModels_leaves cfg env args { s with config }
        exact .inr ⟨config, done, rfl, recorded, recorded_leaves⟩

theorem stopIndexingModels_run (models : List StreamID) (s : IndexState) :
    (DatabaseIndexApi.stopIndexingModels cfg models).run s =
      if models.length = 0 then
        .ok () { s with indexedModels := s.indexedModels.filter fun model => model ∉ models }
      else match upsertModels cfg.backend models false false s.config with
      | .ok config =>
        .ok () { s with config, indexedModels := s.indexedModels.filter fun model => model ∉ models }
      | .error e => .error e s := by
  simp only [DatabaseIndexApi.stopIndexingModels, DatabaseIndexApi.stopIndexingModelsInDatabase,
    run_bind]
  by_cases empty : models.length = 0
  · simp only [empty, ↓reduceIte, run_pure]
    rfl
  · simp only [empty, ↓reduceIte, run_bind, run_pure, run_get]
    cases upsertModels cfg.backend models false false s.config <;> rfl

/-- `DatabaseIndexApi.stopIndexingModels` either leaves the registry as it was, or upserts its
models as not indexed and drops them from the in-memory list. -/
theorem stopIndexingModels_leaves (models : List StreamID) (s : IndexState) :
    leaves ((DatabaseIndexApi.stopIndexingModels cfg models).run s) = s ∨
      ∃ config, upsertModels cfg.backend models false false s.config = .ok config ∧
        leaves ((DatabaseIndexApi.stopIndexingModels cfg models).run s) =
          { s with config, indexedModels := s.indexedModels.filter fun model => model ∉ models } := by
  rw [stopIndexingModels_run]
  by_cases empty : models.length = 0
  · obtain rfl := List.length_eq_zero.mp empty
    exact .inr ⟨s.config, upsertModels_nil _, rfl⟩
  · rw [if_neg empty]
    cases upsert : upsertModels cfg.backend models false false s.config with
    | error => exact .inl rfl
    | ok config => exact .inr ⟨config, rfl, rfl⟩

theorem init_run (s : IndexState) :
    (DatabaseIndexApi.init env).run s = match env.initConfigTables with
      | .ok () => .ok () { s with indexedModels := modelsWhere s.config true }
      | .error message => .error (.external message) s := by
  simp only [DatabaseIndexApi.init, run_bind]
  cases env.initConfigTables <;> rfl

end Database

section Local

variable (cfg : IndexConfig) (env : Collaborators)

theorem indexModels_run (models : List StreamID) (s : IndexState) :
    (LocalIndexApi.indexModels cfg env (some models)).run (some s) =
      match LocalIndexApi.collectIndexModelArgs cfg env (some (modelsWhere s.config false)) models with
      | .error e => .error e (some s)
      | .ok args => match (DatabaseIndexApi.indexModels cfg env args).run s with
        | .ok _ s => .ok () (some s)
        | .error e s => .error e (some s) := by
  simp only [LocalIndexApi.indexModels, run_bind, optionalCall_run,
    DatabaseIndexApi.getModelsNoLongerIndexed, run_get, run_pure]
  cases LocalIndexApi.collectIndexModelArgs cfg env (some (modelsWhere s.config false)) models with
  | error => rfl
  | ok args =>
    simp only [run_liftExcept_ok, optionalCall_run]
    cases (DatabaseIndexApi.indexModels cfg env args).run s <;> rfl

theorem init_run_some (s : IndexState) :
    (LocalIndexApi.init cfg env).run (some s) = match env.initConfigTables with
      | .ok () => (LocalIndexApi.indexModels cfg env (some (modelsWhere s.config true))).run
          (some { s with indexedModels := modelsWhere s.config true })
      | .error message => .error (.external message) (some s) := by
  simp only [LocalIndexApi.init, run_bind, run_get, Option.isNone_some, Bool.false_eq_true,
    ↓reduceIte, run_pure, requiredCall_run, init_run]
  rcases env.initConfigTables with _ | ⟨⟨⟩⟩ <;> rfl

theorem indexStream_run_some (args : IndexStreamArgs) (s : IndexState) :
    (LocalIndexApi.indexStream cfg env args).run (some s) =
      if args.model ∈ s.indexedModels then
        .ok () (some { s with
          tables := Function.update s.tables args.model.toString
            (IndexTables.indexStream cfg.backend ((s.modelRelations args.model).getD []) env.now
              (s.tables args.model.toString) args) })
      else .ok () (some s) := by
  simp only [LocalIndexApi.indexStream, run_bind, run_get, LocalIndexApi.shouldIndexStream]
  by_cases indexed : args.model ∈ s.indexedModels
  · simp [indexed]
    rfl
  · simp [indexed]

theorem count_leaves (query : BaseQuery) (s : IndexState) :
    leaves ((LocalIndexApi.count cfg env query).run (some s)) = some s := by
  simp only [LocalIndexApi.count, DatabaseIndexApi.count, requiredCall_run, run_bind,
    assertModelQueryable_run]
  split_ifs <;> rfl

theorem query_leaves (query : PaginationQuery) (s : IndexState) :
    leaves ((LocalIndexApi.query cfg env query).run (some s)) = some s := by
  simp only [LocalIndexApi.query, DatabaseIndexApi.page, run_bind, optionalCall_run,
    assertModelQueryable_run]
  split_ifs <;> rfl

end Local

/-! ## What a call can do -/

/-- One change a call can make to a configured registry. -/
inductive Move (cfg : IndexConfig) (s : IndexState) : IndexState → Prop
  /-- `indexStream` rewrites the model tables. -/
  | write (tables : String → Table) : Move cfg s { s with tables }
  /-- A restart forgets the in-memory registry. -/
  | restart : Move cfg s s.restart
  /-- `DatabaseIndexApi.init` reloads the models whose row says indexed. -/
  | load : Move cfg s { s with indexedModels := modelsWhere s.config true }
  /-- `indexModels` upserts its models, none of which has an `is_indexed = false` row, and
  records a prefix of them. -/
  | index (args done : List IndexModelArgs) (config : ConfigTable)
      (fresh : ∀ x ∈ args.map (·.model), s.config.lookup x ≠ some false)
      (upsert : upsertModels cfg.backend (args.map (·.model)) cfg.isIndexedDefault true s.config =
        .ok config)
      (recorded : done <+: args) :
      Move cfg s (done.foldl IndexState.record { s with config })
  /-- `stopIndexingModels` upserts its models as not indexed and drops them. -/
  | stop (models : List StreamID) (config : ConfigTable)
      (upsert : upsertModels cfg.backend models false false s.config = .ok config) :
      Move cfg s { s with config, indexedModels := s.indexedModels.filter fun model => model ∉ models }

open Relation

section Moves

variable (cfg : IndexConfig)

theorem indexModels_moves (env : Collaborators) (models : Option (List StreamID)) (s : IndexState) :
    ∃ s', leaves ((LocalIndexApi.indexModels cfg env models).run (some s)) = some s' ∧
      ReflTransGen (Move cfg) s s' := by
  cases models with
  | none => exact ⟨s, rfl, .refl⟩
  | some models =>
    rw [indexModels_run]
    cases collected : LocalIndexApi.collectIndexModelArgs cfg env (some (modelsWhere s.config false)) models with
    | error => exact ⟨s, rfl, .refl⟩
    | ok args =>
      obtain ⟨same, unlisted⟩ := collectIndexModelArgs_ok cfg env collected
      have fresh : ∀ x ∈ args.map (·.model), s.config.lookup x ≠ some false := by
        intro x mem row
        rw [same] at mem
        simpa [mem_modelsWhere.mpr row] using unlisted x mem
      have lifted : leaves (match (DatabaseIndexApi.indexModels cfg env args).run s with
          | .ok _ s => (.ok () (some s) : EStateM.Result IndexError LocalState Unit)
          | .error e s => .error e (some s)) =
          some (leaves ((DatabaseIndexApi.indexModels cfg env args).run s)) := by
        cases (DatabaseIndexApi.indexModels cfg env args).run s <;> rfl
      rw [lifted]
      obtain unchanged | ⟨config, done, upsert, recorded, moved⟩ := indexModels_leaves cfg env args s
      · exact ⟨s, by rw [unchanged], .refl⟩
      · exact ⟨_, by rw [moved], .single (.index args done config fresh upsert recorded)⟩

/-- Every call on a configured registry, whether it returns or throws, is a sequence of
moves. -/
theorem step_moves (s : IndexState) :
    ∀ call : IndexCall × Collaborators,
      ∃ s', step cfg (some s) call = some s' ∧ ReflTransGen (Move cfg) s s'
  | (.init, env) => by
    simp only [step, IndexCall.program, init_run_some]
    cases env.initConfigTables with
    | error => exact ⟨s, rfl, .refl⟩
    | ok =>
      obtain ⟨s', indexed, moves⟩ := indexModels_moves cfg env (some (modelsWhere s.config true))
        { s with indexedModels := modelsWhere s.config true }
      exact ⟨s', indexed, .head .load moves⟩
  | (.indexModels models, env) => indexModels_moves cfg env models s
  | (.stopIndexingModels models, env) => by
    have lifted : step cfg (some s) (.stopIndexingModels models, env) =
        some (leaves ((DatabaseIndexApi.stopIndexingModels cfg models).run s)) := by
      simp only [step, IndexCall.program, LocalIndexApi.stopIndexingModels, run_bind,
        optionalCall_run]
      cases (DatabaseIndexApi.stopIndexingModels cfg models).run s <;> rfl
    rw [lifted]
    obtain unchanged | ⟨config, upsert, stopped⟩ := stopIndexingModels_leaves cfg models s
    · exact ⟨s, by rw [unchanged], .refl⟩
    · exact ⟨_, by rw [stopped], .single (.stop models config upsert)⟩
  | (.indexStream args, env) => by
    simp only [step, IndexCall.program, indexStream_run_some]
    split
    · exact ⟨_, rfl, .single (.write _)⟩
    · exact ⟨s, rfl, .refl⟩
  | (.count query, env) =>
    ⟨s, by rw [step, IndexCall.program, leaves_bind_pure, count_leaves], .refl⟩
  | (.query query, env) =>
    ⟨s, by rw [step, IndexCall.program, leaves_bind_pure, query_leaves], .refl⟩
  | (.restart, _) => ⟨s.restart, rfl, .single .restart⟩

/-- A run from a configured registry stays configured and is a sequence of moves. -/
theorem replay_moves : ∀ (calls : List (IndexCall × Collaborators)) (s : IndexState),
    ∃ s', replay cfg (some s) calls = some s' ∧ ReflTransGen (Move cfg) s s'
  | [], s => ⟨s, rfl, .refl⟩
  | call :: calls, s => by
    obtain ⟨s₁, stepped, first⟩ := step_moves cfg s call
    obtain ⟨s', ran, rest⟩ := replay_moves calls s₁
    exact ⟨s', by rw [replay, List.foldl_cons, stepped]; exact ran, first.trans rest⟩

end Moves

/-! ## Invariants -/

section Invariants

variable {cfg : IndexConfig}

/-- A property of the registry that every move keeps. -/
def Invariant (cfg : IndexConfig) (P : IndexState → Prop) : Prop :=
  ∀ ⦃s s' : IndexState⦄, Move cfg s s' → P s → P s'

theorem Invariant.moves {P : IndexState → Prop} (inv : Invariant cfg P) {s s' : IndexState}
    (moves : ReflTransGen (Move cfg) s s') (h : P s) : P s' := by
  induction moves with
  | refl => exact h
  | tail _ move ih => exact inv move ih

/-- An invariant holds all along a run from a configured registry. -/
theorem Invariant.replay {P : IndexState → Prop} (inv : Invariant cfg P)
    (calls : List (IndexCall × Collaborators)) {s : IndexState} (h : P s) :
    ∃ s', replay cfg (some s) calls = some s' ∧ P s' :=
  let ⟨s', ran, moves⟩ := replay_moves cfg calls s
  ⟨s', ran, inv.moves moves h⟩

theorem nodup_invariant : Invariant cfg fun s => s.indexedModels.Nodup := by
  intro s s' move nodup
  cases move with
  | write => exact nodup
  | restart => exact List.nodup_nil
  | load => exact modelsWhere_nodup _ _
  | index => exact foldl_record_nodup _ nodup
  | stop => exact nodup.filter _

/-- The in-memory registry never holds a model twice, whatever the calls and however they
end. -/
theorem replay_indexedModels_nodup (calls : List (IndexCall × Collaborators)) {s : IndexState}
    (nodup : s.indexedModels.Nodup) :
    ∃ s', replay cfg (some s) calls = some s' ∧ s'.indexedModels.Nodup :=
  nodup_invariant.replay calls nodup

/-- `m` is stopped: its config row says not indexed, and the in-memory registry does not hold
it. -/
def Stopped (m : StreamID) (s : IndexState) : Prop :=
  s.config.lookup m = some false ∧ m ∉ s.indexedModels

theorem stopped_invariant (m : StreamID) : Invariant cfg (Stopped m) := by
  intro s s' move ⟨row, absent⟩
  cases move with
  | write => exact ⟨row, absent⟩
  | restart => exact ⟨row, List.not_mem_nil m⟩
  | load => exact ⟨row, fun mem => by simp [mem_modelsWhere.mp mem] at row⟩
  | index args done config fresh upsert recorded =>
    have unlisted : m ∉ args.map (·.model) := fun mem => fresh m mem row
    refine ⟨by rw [foldl_record_config]; exact (upsertModels_lookup_of_not_mem upsert unlisted).trans row, ?_⟩
    rw [mem_foldl_record, not_or]
    exact ⟨absent, fun mem => unlisted ((recorded.sublist.map _).subset mem)⟩
  | stop models config upsert =>
    refine ⟨?_, by simp [absent]⟩
    by_cases listed : m ∈ models
    · simpa using upsertModels_lookup_of_mem upsert listed
    · exact (upsertModels_lookup_of_not_mem upsert listed).trans row

end Invariants

/-! ## A stopped model -/

section StoppedModel

variable (cfg : IndexConfig) {m : StreamID} {u : IndexState}

theorem stopIndexingModels_stopped {s : IndexState} {models : List StreamID}
    (ok : (LocalIndexApi.stopIndexingModels cfg models).run (some s) = .ok () (some u))
    (listed : m ∈ models) : Stopped m u := by
  simp only [LocalIndexApi.stopIndexingModels, run_bind, optionalCall_run,
    stopIndexingModels_run, if_neg (List.length_pos_of_mem listed).ne'] at ok
  cases upsert : upsertModels cfg.backend models false false s.config with
  | error => simp [upsert] at ok
  | ok config =>
    simp only [upsert, run_pure, EStateM.Result.ok.injEq, Option.some.injEq, true_and] at ok
    subst ok
    refine ⟨?_, by simp [listed]⟩
    simpa using upsertModels_lookup_of_mem upsert listed

theorem stopped_not_indexed (stopped : Stopped m u) :
    u.indexedModels.any (fun indexed => indexed.toString = m.toString) = false := by
  simp only [List.any_eq_false, decide_eq_true_eq]
  intro indexed mem same
  have : indexed = m := by cases indexed; cases m; cases same; rfl
  exact stopped.2 (this ▸ mem)

theorem stopped_indexModels_throws (env : Collaborators) (stopped : Stopped m u)
    {models : List StreamID} (listed : m ∈ models) :
    ∃ e, (LocalIndexApi.indexModels cfg env (some models)).run (some u) = .error e (some u) := by
  rw [indexModels_run]
  cases collected :
      LocalIndexApi.collectIndexModelArgs cfg env (some (modelsWhere u.config false)) models with
  | error e => exact ⟨e, rfl⟩
  | ok args =>
    have refused := (collectIndexModelArgs_ok cfg env collected).2 m listed
    simp [mem_modelsWhere.mpr stopped.1] at refused

theorem stopped_indexModels_reindex (env : Collaborators) (stopped : Stopped m u)
    {modelArgs : IndexModelArgs} (loaded : LocalIndexApi.getIndexModelArgs cfg env m = .ok modelArgs) :
    (LocalIndexApi.indexModels cfg env (some [m])).run (some u) = .error (.reindex m) (some u) := by
  have refused : (some (modelsWhere u.config false)).any (m ∈ ·) = true := by
    simpa using mem_modelsWhere.mpr stopped.1
  rw [indexModels_run]
  simp [LocalIndexApi.collectIndexModelArgs, loaded, refused, bind, Except.bind, throw, throwThe,
    MonadExceptOf.throw]

theorem stopped_count_throws (env : Collaborators) (stopped : Stopped m u) {query : BaseQuery}
    (same : query.model = m.toString) :
    (LocalIndexApi.count cfg env query).run (some u) = .error (.notIndexed query.model) (some u) := by
  simp only [LocalIndexApi.count, DatabaseIndexApi.count, requiredCall_run, run_bind,
    assertModelQueryable_run, same, stopped_not_indexed stopped]
  rfl

theorem stopped_query_throws (env : Collaborators) (stopped : Stopped m u)
    {query : PaginationQuery} (same : query.model = m.toString) :
    (LocalIndexApi.query cfg env query).run (some u) = .error (.notIndexed query.model) (some u) := by
  simp only [LocalIndexApi.query, DatabaseIndexApi.page, run_bind, optionalCall_run,
    assertModelQueryable_run, same, stopped_not_indexed stopped]
  rfl

theorem stopped_indexStream_skips (env : Collaborators) (stopped : Stopped m u)
    {args : IndexStreamArgs} (same : args.model = m) :
    (LocalIndexApi.indexStream cfg env args).run (some u) = .ok () (some u) := by
  rw [indexStream_run_some, if_neg (same ▸ stopped.2)]

/-- Once a `stopIndexingModels` call listing `m` has returned normally on a configured index,
whatever calls and restarts follow: `m` is not in `indexedModels()`, an `indexModels` call
listing it throws and changes nothing, a query or count for it throws, and indexing a stream
of it writes nothing. -/
theorem stopped_model_stays_stopped {s t : IndexState} {models : List StreamID}
    (stopped : (LocalIndexApi.stopIndexingModels cfg models).run (some s) = .ok () (some t))
    (listed : m ∈ models) (calls : List (IndexCall × Collaborators)) :
    ∃ u, replay cfg (some t) calls = some u ∧
      m ∉ LocalIndexApi.indexedModels (some u) ∧
      (∀ (env : Collaborators) (models : List StreamID), m ∈ models →
        ∃ e, (LocalIndexApi.indexModels cfg env (some models)).run (some u) = .error e (some u)) ∧
      (∀ (env : Collaborators) (query : BaseQuery), query.model = m.toString →
        ∃ e, (LocalIndexApi.count cfg env query).run (some u) = .error e (some u)) ∧
      (∀ (env : Collaborators) (query : PaginationQuery), query.model = m.toString →
        ∃ e, (LocalIndexApi.query cfg env query).run (some u) = .error e (some u)) ∧
      (∀ (env : Collaborators) (args : IndexStreamArgs), args.model = m →
        (LocalIndexApi.indexStream cfg env args).run (some u) = .ok () (some u)) := by
  obtain ⟨u, ran, still⟩ :=
    (stopped_invariant m).replay calls (stopIndexingModels_stopped cfg stopped listed)
  exact ⟨u, ran, still.2, fun env _ listed => stopped_indexModels_throws cfg env still listed,
    fun env _ same => ⟨_, stopped_count_throws cfg env still same⟩,
    fun env _ same => ⟨_, stopped_query_throws cfg env still same⟩,
    fun env _ same => stopped_indexStream_skips cfg env still same⟩

end StoppedModel

/-! ## Runs on a fresh node -/

/-- A Model stream. -/
def sampleModel : StreamID := ⟨"kjzl6model"⟩

/-- A node on SQLite whose config table defaults `is_indexed` to true and which holds queries
back until historical sync completes; every stream is a Model stream. -/
def sampleConfig : IndexConfig where
  backend := .sqlite
  allowQueriesBeforeHistoricalSync := false
  isIndexedDefault := true
  streamType := fun _ => 2
  modelStreamTypeId := 2
  metaModel := ⟨"meta"⟩

/-- Collaborators for which every Model loads with a valid version and is still in historical
sync. -/
def sampleEnv : Collaborators where
  load := fun _ => .ok ⟨⟨"1.0", none⟩, none⟩
  assertVersionValid := fun _ => .ok ()
  initConfigTables := .ok ()
  prepareTables := fun _ => .ok ()
  syncComplete := fun _ => false
  now := 0
  insertionOrderPage := fun _ _ => ⟨[], ⟨false, false, none, none⟩⟩
  streamState := fun _ => none

/-- The registry of a node on an empty database. -/
def emptyRegistry : IndexState := ⟨∅, [], fun _ => none, fun _ => ∅⟩

theorem sample_registry_nodup :
    emptyRegistry.indexedModels.Nodup ∧
      ∃ s', replay sampleConfig (some emptyRegistry)
          [(.indexModels (some [sampleModel, sampleModel]), { sampleEnv with syncComplete := fun _ => true }),
            (.restart, sampleEnv), (.init, sampleEnv)] = some s' ∧ s'.indexedModels.Nodup :=
  ⟨List.nodup_nil, replay_indexedModels_nodup _ List.nodup_nil⟩

theorem sample_model_stays_stopped :
    ∃ t, (LocalIndexApi.stopIndexingModels sampleConfig [sampleModel]).run (some emptyRegistry) =
        .ok () (some t) ∧
      ∃ u, replay sampleConfig (some t) [(.restart, sampleEnv), (.init, sampleEnv)] = some u ∧
      sampleModel ∉ LocalIndexApi.indexedModels (some u) ∧
      (∀ (env : Collaborators) (models : List StreamID), sampleModel ∈ models →
        ∃ e, (LocalIndexApi.indexModels sampleConfig env (some models)).run (some u) =
          .error e (some u)) ∧
      (∀ (env : Collaborators) (query : BaseQuery), query.model = sampleModel.toString →
        ∃ e, (LocalIndexApi.count sampleConfig env query).run (some u) = .error e (some u)) ∧
      (∀ (env : Collaborators) (query : PaginationQuery), query.model = sampleModel.toString →
        ∃ e, (LocalIndexApi.query sampleConfig env query).run (some u) = .error e (some u)) ∧
      (∀ (env : Collaborators) (args : IndexStreamArgs), args.model = sampleModel →
        (LocalIndexApi.indexStream sampleConfig env args).run (some u) = .ok () (some u)) :=
  ⟨_, rfl, @stopped_model_stays_stopped sampleConfig sampleModel emptyRegistry _ [sampleModel] rfl
    (List.mem_singleton_self _) _⟩

/-- Stopping a model that was never indexed makes it unindexable for good: on a fresh node
`stopIndexingModels([m])` returns normally, and after any calls that follow, `indexModels([m])`
throws `Cannot re-index model`. -/
theorem stop_before_index_blocks_model :
    ∃ t, (LocalIndexApi.stopIndexingModels sampleConfig [sampleModel]).run (some emptyRegistry) =
        .ok () (some t) ∧
      ∀ calls : List (IndexCall × Collaborators), ∃ u,
        replay sampleConfig (some t) calls = some u ∧
        (LocalIndexApi.indexModels sampleConfig sampleEnv (some [sampleModel])).run (some u) =
          .error (.reindex sampleModel) (some u) := by
  refine ⟨_, rfl, fun calls => ?_⟩
  obtain ⟨u, ran, stopped⟩ := (stopped_invariant sampleModel).replay calls
    (@stopIndexingModels_stopped sampleConfig sampleModel _ emptyRegistry [sampleModel] rfl
      (List.mem_singleton_self _))
  exact ⟨u, ran, stopped_indexModels_reindex sampleConfig sampleEnv stopped rfl⟩

/-- On a fresh node whose historical sync of a model is still running, `indexModels([m])`
commits `is_indexed = true` for `m`, then throws `IndexQueryNotAvailableError` before recording
it; the next call, an `indexModels([])` that returns normally, leaves the config table and
`indexedModels` disagreeing. -/
theorem sync_check_failure_commits_rows :
    ∃ t, (LocalIndexApi.indexModels sampleConfig sampleEnv (some [sampleModel])).run
        (some emptyRegistry) = .error (.queryNotAvailable sampleModel.toString) (some t) ∧
      emptyRegistry.config.lookup sampleModel = none ∧
      t.config.lookup sampleModel = some true ∧ t.indexedModels = [] ∧
      (LocalIndexApi.indexModels sampleConfig sampleEnv (some [])).run (some t) = .ok () (some t) :=
  ⟨_, rfl, rfl, rfl, rfl, rfl⟩

/-! ## Listed models have rows -/

section ListedRows

variable {cfg : IndexConfig}

/-- Every model of the in-memory list has an `is_indexed = true` row. -/
def ListedTrue (s : IndexState) : Prop :=
  ∀ m ∈ s.indexedModels, s.config.lookup m = some true

/-- With `is_indexed` defaulting to true, an upsert of `indexModels` gives every model it
touches a true row, so each move keeps the listed models' rows true. -/
theorem listedTrue_invariant (default : cfg.isIndexedDefault = true) : Invariant cfg ListedTrue := by
  intro s s' move listed
  cases move with
  | write => exact listed
  | restart => exact fun m mem => absurd mem (List.not_mem_nil m)
  | load => exact fun m mem => mem_modelsWhere.mp mem
  | index args done config fresh upsert recorded =>
    intro m mem
    rw [foldl_record_config]
    by_cases upserted : m ∈ args.map (·.model)
    · simpa [default] using upsertModels_lookup_of_mem upsert upserted
    · rcases mem_foldl_record.mp mem with old | new
      · exact (upsertModels_lookup_of_not_mem upsert upserted).trans (listed m old)
      · exact absurd ((recorded.sublist.map _).subset new) upserted
  | stop models config upsert =>
    intro m mem
    obtain ⟨old, kept⟩ := List.mem_filter.mp mem
    exact (upsertModels_lookup_of_not_mem upsert (by simpa using kept)).trans (listed m old)

/-- When `ceramic_models.is_indexed` defaults to true, every model of the in-memory list has an
`is_indexed = true` row all along any run, restarts included, whatever the calls and however
they end. -/
theorem listed_models_have_true_rows (default : cfg.isIndexedDefault = true)
    (calls : List (IndexCall × Collaborators)) {s : IndexState} (listed : ListedTrue s) :
    ∃ s', replay cfg (some s) calls = some s' ∧ ListedTrue s' :=
  (listedTrue_invariant default).replay calls listed

end ListedRows

theorem sample_listed_models_have_true_rows :
    sampleConfig.isIndexedDefault = true ∧ ListedTrue emptyRegistry ∧
      ∃ s', replay sampleConfig (some emptyRegistry)
          [(.indexModels (some [sampleModel]), sampleEnv), (.restart, sampleEnv), (.init, sampleEnv)] =
        some s' ∧ ListedTrue s' :=
  have listed : ListedTrue emptyRegistry := fun _ mem => absurd mem (List.not_mem_nil _)
  ⟨rfl, listed, listed_models_have_true_rows rfl _ listed⟩

end Ceramic.IndexRuns
