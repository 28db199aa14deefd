import Ceramic.IndexRuns

/-! Concurrent `indexModels` and `stopIndexingModels` calls on one configured registry.

A call runs in steps, one for each stretch between two of its awaits that touches the registry.
`indexModels` reads the models no longer indexed (collecting its arguments reads nothing else of
the registry), upserts its rows, and pushes its models one at a time, each after the await of its
sync check. `stopIndexingModels` upserts its rows, then filters the in-memory list. A schedule
says which call resumes next (`World.run`); a call run alone does what the methods of `IndexApi`
do (`solo_indexModels`, `solo_stopIndexingModels`).

An `indexModels` call can read and upsert before a `stopIndexingModels` call on the same model
and push after it (`stop_overtaken_by_index`). When no call that indexes a model is in progress
while a call that stops it is, the in-memory list and the `is_indexed = true` rows agree once
every call has returned, and each stopped model stays stopped (`separated_calls_agree`).

Under every schedule the in-memory list keeps its models distinct
(`interleaved_indexedModels_nodup`), and a schedule that runs the calls one after another ends
where the sequential replay of `IndexRuns` ends (`serial_schedule_replays`). -/
namespace Ceramic.IndexInterleavings
open Ceramic.IndexTables Ceramic.IndexApi Ceramic.IndexRuns

/-- Where an `indexModels` call stands. -/
inductive IndexPhase where
  | called
  /-- It read the models no longer indexed and collected its arguments. -/
  | upserting (args : List IndexModelArgs)
  /-- It upserted its rows; the arguments still to push. -/
  | recording (rest : List IndexModelArgs)
  | returned
  | threw (e : IndexError)
  deriving DecidableEq, Repr

/-- Where a `stopIndexingModels` call stands. -/
inductive StopPhase where
  | called
  /-- It upserted its rows. -/
  | filtering
  | returned
  | threw (e : IndexError)
  deriving DecidableEq, Repr

/-- A call in flight, with the collaborators an `indexModels` call sees. -/
inductive Call where
  | indexModels (models : List StreamID) (env : Collaborators) (phase : IndexPhase)
  | stopIndexingModels (models : List StreamID) (phase : StopPhase)

section Steps

variable (cfg : IndexConfig)

/-- A step that runs a registry program: its next phase when it returns, its error otherwise. -/
def resumeWith {φ : Type} (program : EStateM IndexError IndexState Unit) (next : φ)
    (threw : IndexError → φ) (s : IndexState) : IndexState × φ :=
  match program.run s with
  | .ok () s => (s, next)
  | .error e s => (s, threw e)

/-- `LocalIndexApi.indexModels` resumed at its next await. -/
def indexModelsStep (models : List StreamID) (env : Collaborators) (s : IndexState) :
    IndexPhase → IndexState × IndexPhase
  | .called =>
    match LocalIndexApi.collectIndexModelArgs cfg env (some (modelsWhere s.config false)) models with
    | .ok args => (s, .upserting args)
    | .error e => (s, .threw e)
  | .upserting args =>
    resumeWith (DatabaseIndexApi.indexModelsInDatabase cfg env args) (.recording args) .threw s
  | .recording [] => (s, .returned)
  | .recording (modelArgs :: rest) =>
    match DatabaseIndexApi.assertNoOngoingSyncForModel cfg env modelArgs.model.toString with
    | .ok () => (s.record modelArgs, .recording rest)
    | .error e => (s, .threw e)
  | .returned => (s, .returned)
  | .threw e => (s, .threw e)

/-- `LocalIndexApi.stopIndexingModels` resumed at its next await. -/
def stopIndexingModelsStep (models : List StreamID) (s : IndexState) :
    StopPhase → IndexState × StopPhase
  | .called =>
    resumeWith (DatabaseIndexApi.stopIndexingModelsInDatabase cfg models) .filtering .threw s
  | .filtering =>
    ({ s with indexedModels := s.indexedModels.filter fun model => model ∉ models }, .returned)
  | .returned => (s, .returned)
  | .threw e => (s, .threw e)

/-- A call resumed at its next await. -/
def Call.step (s : IndexState) : Call → IndexState × Call
  | .indexModels models env phase =>
    ((indexModelsStep cfg models env s phase).1,
      .indexModels models env (indexModelsStep cfg models env s phase).2)
  | .stopIndexingModels models phase =>
    ((stopIndexingModelsStep cfg models s phase).1,
      .stopIndexingModels models (stopIndexingModelsStep cfg models s phase).2)

/-- The registry and the calls in flight. -/
structure World where
  registry : IndexState
  calls : List Call

/-- The scheduler resumes call `i`; a number past the calls changes nothing. -/
def World.advance (w : World) (i : Nat) : World :=
  match w.calls[i]? with
  | some call => ⟨(call.step cfg w.registry).1, w.calls.set i (call.step cfg w.registry).2⟩
  | none => w

/-- The world after a schedule. -/
def World.run (w : World) : List Nat → World
  | [] => w
  | i :: schedule => (w.advance cfg i).run schedule

end Steps

namespace Call

/-- The call returned normally. -/
def returned : Call → Bool
  | .indexModels _ _ .returned | .stopIndexingModels _ .returned => true
  | _ => false

/-- The call has been made and has taken no step. -/
def called : Call → Bool
  | .indexModels _ _ .called | .stopIndexingModels _ .called => true
  | _ => false

/-- The call threw. -/
def threw : Call → Bool
  | .indexModels _ _ (.threw _) | .stopIndexingModels _ (.threw _) => true
  | _ => false

/-- The call took its first step and has not ended. -/
def inProgress : Call → Bool
  | .indexModels _ _ (.upserting _) | .indexModels _ _ (.recording _)
  | .stopIndexingModels _ .filtering => true
  | _ => false

/-- The models an `indexModels` call was given. -/
def indexes : Call → List StreamID
  | .indexModels models _ _ => models
  | .stopIndexingModels _ _ => []

/-- The models a `stopIndexingModels` call was given. -/
def stops : Call → List StreamID
  | .indexModels _ _ _ => []
  | .stopIndexingModels models _ => models

/-- The models an `indexModels` call may still push. -/
def pending : Call → List StreamID
  | .indexModels _ _ (.upserting args) | .indexModels _ _ (.recording args) => args.map (·.model)
  | _ => []

/-- The models an `indexModels` call upserted and has not pushed yet. -/
def pushing : Call → List StreamID
  | .indexModels _ _ (.recording rest) => rest.map (·.model)
  | _ => []

/-- The models of a `stopIndexingModels` call past its upsert. -/
def stopping : Call → List StreamID
  | .stopIndexingModels models .filtering | .stopIndexingModels models .returned => models
  | _ => []

/-- The models a `stopIndexingModels` call upserted and has not filtered out yet. -/
def filtering : Call → List StreamID
  | .stopIndexingModels models .filtering => models
  | _ => []

/-- The models of a `stopIndexingModels` call that returned. -/
def stopped : Call → List StreamID
  | .stopIndexingModels models .returned => models
  | _ => []

end Call

/-- The models of the in-memory list are those of the `is_indexed = true` rows. -/
def Consistent (s : IndexState) : Prop :=
  ∀ m, m ∈ s.indexedModels ↔ s.config.lookup m = some true

/-- No call that indexes a model is in progress while a call that stops it is. -/
def Separated (w : World) : Prop :=
  ∀ c ∈ w.calls, ∀ d ∈ w.calls, c.inProgress → d.inProgress → ∀ m ∈ c.indexes, m ∉ d.stops

instance (w : World) : Decidable (Separated w) := inferInstanceAs (Decidable (∀ c ∈ w.calls, _))

/-! ## A stop overtaken -/

/-- A registry where the sample model is indexed. -/
def indexedRegistry : IndexState :=
  ⟨(∅ : ConfigTable).insert sampleModel true, [sampleModel], fun _ => none, fun _ => ∅⟩

/-- The sample collaborators once historical sync has completed. -/
def syncedEnv : Collaborators := { sampleEnv with syncComplete := fun _ => true }

/-- An `indexModels` and a `stopIndexingModels` call on the sample model. -/
def racedWorld : World :=
  ⟨indexedRegistry,
    [.indexModels [sampleModel] syncedEnv .called, .stopIndexingModels [sampleModel] .called]⟩

theorem indexedRegistry_consistent : Consistent indexedRegistry := by
  intro m
  by_cases same : m = sampleModel
  · subst same
    simp only [indexedRegistry, AList.lookup_insert, List.mem_singleton]
  · simp only [indexedRegistry, AList.lookup_insert_ne same, AList.lookup_empty, List.mem_singleton,
      same, reduceCtorEq]

/-- The `indexModels` call reads and upserts, the `stopIndexingModels` call upserts and filters
the model out and returns, and the `indexModels` call then pushes it back and returns: the model is
in the in-memory list with an `is_indexed = false` row. -/
theorem stop_overtaken_by_index :
    Consistent racedWorld.registry ∧
      (racedWorld.run sampleConfig [0, 0, 1, 1, 0, 0]).calls.all Call.returned = true ∧
      ¬Consistent (racedWorld.run sampleConfig [0, 0, 1, 1, 0, 0]).registry ∧
      sampleModel ∈ (racedWorld.run sampleConfig [0, 0, 1]).registry.indexedModels ∧
      sampleModel ∉ (racedWorld.run sampleConfig [0, 0, 1, 1]).registry.indexedModels ∧
      (racedWorld.run sampleConfig [0, 0, 1, 1]).calls.map Call.inProgress = [true, false] ∧
      sampleModel ∈ (racedWorld.run sampleConfig [0, 0, 1, 1, 0, 0]).registry.indexedModels := by
  have back : sampleModel ∈ (racedWorld.run sampleConfig [0, 0, 1, 1, 0, 0]).registry.indexedModels := by
    decide
  have row : (racedWorld.run sampleConfig [0, 0, 1, 1, 0, 0]).registry.config.lookup sampleModel =
      some false := by
    decide
  refine ⟨indexedRegistry_consistent, by decide, fun consistent => ?_, by decide, by decide, by decide, back⟩
  simpa [row] using (consistent sampleModel).mp back

/-! ## What a step does -/

/-- A step of a call that neither throws nor stands still. -/
inductive Resume (cfg : IndexConfig) (s : IndexState) : Call → IndexState → Call → Prop
  /-- `indexModels` reads the models no longer indexed and collects its arguments. -/
  | collect {models env args}
      (collected : LocalIndexApi.collectIndexModelArgs cfg env (some (modelsWhere s.config false))
        models = .ok args) :
      Resume cfg s (.indexModels models env .called) s (.indexModels models env (.upserting args))
  /-- `indexModels` upserts its rows. -/
  | upsert {models env args config}
      (upserted : upsertModels cfg.backend (args.map (·.model)) cfg.isIndexedDefault true s.config =
        .ok config) :
      Resume cfg s (.indexModels models env (.upserting args)) { s with config }
        (.indexModels models env (.recording args))
  /-- `indexModels` pushes a model after its sync check. -/
  | push {models env modelArgs rest} :
      Resume cfg s (.indexModels models env (.recording (modelArgs :: rest))) (s.record modelArgs)
        (.indexModels models env (.recording rest))
  /-- `indexModels` returns. -/
  | finish {models env} :
      Resume cfg s (.indexModels models env (.recording [])) s (.indexModels models env .returned)
  /-- `stopIndexingModels` upserts its rows. -/
  | stop {models config} (upserted : upsertModels cfg.backend models false false s.config = .ok config) :
      Resume cfg s (.stopIndexingModels models .called) { s with config }
        (.stopIndexingModels models .filtering)
  /-- `stopIndexingModels` filters the in-memory list and returns. -/
  | filter {models} :
      Resume cfg s (.stopIndexingModels models .filtering)
        { s with indexedModels := s.indexedModels.filter fun model => model ∉ models }
        (.stopIndexingModels models .returned)

section Cases

variable (cfg : IndexConfig) (s : IndexState)

theorem step_upserting (models : List StreamID) (env : Collaborators) (args : List IndexModelArgs) :
    let c : Call := .indexModels models env (.upserting args)
    (c.step cfg s).2.threw = true ∨ Resume cfg s c (c.step cfg s).1 (c.step cfg s).2 := by
  simp only [Call.step, indexModelsStep, resumeWith, indexModelsInDatabase_run]
  by_cases empty : args.length = 0
  · obtain rfl := List.length_eq_zero.mp empty
    exact .inr (.upsert (upsertModels_nil _))
  · rw [if_neg empty]
    rcases env.prepareTables args with _ | ⟨⟨⟩⟩
    · exact .inl rfl
    · cases upserted : upsertModels cfg.backend (args.map (·.model)) cfg.isIndexedDefault true s.config with
      | error => exact .inl rfl
      | ok config => exact .inr (.upsert upserted)

theorem step_stop_called (models : List StreamID) :
    let c : Call := .stopIndexingModels models .called
    (c.step cfg s).2.threw = true ∨ Resume cfg s c (c.step cfg s).1 (c.step cfg s).2 := by
  simp only [Call.step, stopIndexingModelsStep, resumeWith,
    DatabaseIndexApi.stopIndexingModelsInDatabase]
  by_cases empty : models.length = 0
  · obtain rfl := List.length_eq_zero.mp empty
    exact .inr (.stop (upsertModels_nil _))
  · simp only [empty, ↓reduceIte, run_bind, run_get, run_pure]
    cases upserted : upsertModels cfg.backend models false false s.config with
    | error => exact .inl rfl
    | ok config => exact .inr (.stop upserted)

/-- A step either throws, stands still at an end, or is one of the `Resume` steps. -/
theorem step_cases : ∀ c : Call,
    (c.step cfg s).2.threw = true ∨ c.step cfg s = (s, c) ∨ Resume cfg s c (c.step cfg s).1 (c.step cfg s).2
  | .indexModels models env .called => by
    cases collected : LocalIndexApi.collectIndexModelArgs cfg env (some (modelsWhere s.config false)) models with
    | error => exact .inl (by simp only [Call.step, indexModelsStep, collected]; rfl)
    | ok args =>
      refine .inr (.inr ?_)
      simp only [Call.step, indexModelsStep, collected]
      exact .collect collected
  | .indexModels models env (.upserting args) =>
    (step_upserting cfg s models env args).imp id .inr
  | .indexModels models env (.recording []) => .inr (.inr .finish)
  | .indexModels models env (.recording (modelArgs :: rest)) => by
    cases synced : DatabaseIndexApi.assertNoOngoingSyncForModel cfg env modelArgs.model.toString with
    | error => exact .inl (by simp only [Call.step, indexModelsStep, synced]; rfl)
    | ok =>
      refine .inr (.inr ?_)
      simp only [Call.step, indexModelsStep, synced]
      exact .push
  | .indexModels models env .returned => .inr (.inl rfl)
  | .indexModels models env (.threw e) => .inl rfl
  | .stopIndexingModels models .called => (step_stop_called cfg s models).imp id .inr
  | .stopIndexingModels models .filtering => .inr (.inr .filter)
  | .stopIndexingModels models .returned => .inr (.inl rfl)
  | .stopIndexingModels models (.threw e) => .inl rfl

end Cases

/-- Resuming call `i` is a step of the call at that place. -/
theorem advance_cases (cfg : IndexConfig) (w : World) (i : Nat) :
    w.advance cfg i = w ∨ ∃ pre c post, w.calls = pre ++ c :: post ∧
      w.advance cfg i = ⟨(c.step cfg w.registry).1, pre ++ (c.step cfg w.registry).2 :: post⟩ := by
  unfold World.advance
  split
  · next c found =>
    obtain ⟨lt, rfl⟩ := List.getElem?_eq_some_iff.mp found
    refine .inr ⟨w.calls.take i, w.calls[i], w.calls.drop (i + 1), ?_, ?_⟩
    · rw [← List.drop_eq_getElem_cons, List.take_append_drop]
    · rw [List.set_eq_take_cons_drop _ lt]
  · exact .inl rfl

/-! ## A call run alone -/

section Alone

variable (cfg : IndexConfig) (env : Collaborators)

/-- Resume a call that runs alone. -/
def resumeAlone (p : IndexState × Call) : IndexState × Call := p.2.step cfg p.1

/-- What a finished call returns to its caller, with the registry it leaves. -/
def Call.result (t : IndexState) : Call → EStateM.Result IndexError LocalState Unit
  | .indexModels _ _ (.threw e) | .stopIndexingModels _ (.threw e) => .error e (some t)
  | _ => .ok () (some t)

theorem iterate_ended {t : IndexState} {c : Call} (ended : c.returned = true ∨ c.threw = true) (n : Nat) :
    (resumeAlone cfg)^[n] (t, c) = (t, c) := by
  refine Function.iterate_fixed ?_ n
  rcases c with ⟨_, _, _ | _ | _ | _ | _⟩ | ⟨_, _ | _ | _ | _⟩ <;>
    simp [Call.returned, Call.threw] at ended <;> rfl

theorem recordIndexedModels_cons_run (modelArgs : IndexModelArgs) (rest : List IndexModelArgs)
    (s : IndexState) :
    (DatabaseIndexApi.recordIndexedModels cfg env (modelArgs :: rest)).run s =
      match DatabaseIndexApi.assertNoOngoingSyncForModel cfg env modelArgs.model.toString with
      | .ok () => (DatabaseIndexApi.recordIndexedModels cfg env rest).run (s.record modelArgs)
      | .error e => .error e s := by
  simp only [DatabaseIndexApi.recordIndexedModels, run_bind]
  cases DatabaseIndexApi.assertNoOngoingSyncForModel cfg env modelArgs.model.toString <;> rfl

/-- Alone, the pushes of an `indexModels` call end as `recordIndexedModels` does. -/
theorem recording_alone (models : List StreamID) : ∀ (args : List IndexModelArgs) (s : IndexState)
    (n : Nat), args.length < n →
    (resumeAlone cfg)^[n] (s, .indexModels models env (.recording args)) =
      match (DatabaseIndexApi.recordIndexedModels cfg env args).run s with
      | .ok () t => (t, .indexModels models env .returned)
      | .error e t => (t, .indexModels models env (.threw e))
  | [], s, n + 1, _ => iterate_ended cfg (c := .indexModels models env .returned) (.inl rfl) n
  | modelArgs :: rest, s, n + 1, lt => by
    rw [Function.iterate_succ_apply, recordIndexedModels_cons_run]
    cases synced : DatabaseIndexApi.assertNoOngoingSyncForModel cfg env modelArgs.model.toString with
    | error e =>
      have threw : resumeAlone cfg (s, .indexModels models env (.recording (modelArgs :: rest))) =
          (s, .indexModels models env (.threw e)) := by
        simp only [resumeAlone, Call.step, indexModelsStep, synced]
      rw [threw, iterate_ended cfg (c := .indexModels models env (.threw e)) (.inr rfl)]
    | ok =>
      have pushed : resumeAlone cfg (s, .indexModels models env (.recording (modelArgs :: rest))) =
          (s.record modelArgs, .indexModels models env (.recording rest)) := by
        simp only [resumeAlone, Call.step, indexModelsStep, synced]
      rw [pushed, recording_alone models rest _ n (by simpa using lt)]

/-- An `indexModels` call run alone ends within `models.length + 3` steps, and returns or throws
as `LocalIndexApi.indexModels` does, leaving the same registry. -/
theorem solo_indexModels (models : List StreamID) (s : IndexState) :
    ∃ t c, (resumeAlone cfg)^[models.length + 3] (s, .indexModels models env .called) = (t, c) ∧
      (c.returned = true ∨ c.threw = true) ∧
      (LocalIndexApi.indexModels cfg env (some models)).run (some s) = c.result t := by
  rw [Function.iterate_succ_apply, indexModels_run]
  cases collected : LocalIndexApi.collectIndexModelArgs cfg env (some (modelsWhere s.config false)) models with
  | error e =>
    have threw : resumeAlone cfg (s, .indexModels models env .called) = (s, .indexModels models env (.threw e)) := by
      simp only [resumeAlone, Call.step, indexModelsStep, collected]
    rw [threw, iterate_ended cfg (c := .indexModels models env (.threw e)) (.inr rfl)]
    exact ⟨_, _, rfl, .inr rfl, rfl⟩
  | ok args =>
    have length : args.length = models.length := by
      rw [← (collectIndexModelArgs_ok cfg env collected).1, List.length_map]
    have read : resumeAlone cfg (s, .indexModels models env .called) =
        (s, .indexModels models env (.upserting args)) := by
      simp only [resumeAlone, Call.step, indexModelsStep, collected]
    rw [read, Function.iterate_succ_apply]
    simp only [DatabaseIndexApi.indexModels, run_bind]
    cases upserted : (DatabaseIndexApi.indexModelsInDatabase cfg env args).run s with
    | error e t =>
      have threw : resumeAlone cfg (s, .indexModels models env (.upserting args)) =
          (t, .indexModels models env (.threw e)) := by
        simp only [resumeAlone, Call.step, indexModelsStep, resumeWith, upserted]
      rw [threw, iterate_ended cfg (c := .indexModels models env (.threw e)) (.inr rfl)]
      exact ⟨_, _, rfl, .inr rfl, rfl⟩
    | ok _ t =>
      have wrote : resumeAlone cfg (s, .indexModels models env (.upserting args)) =
          (t, .indexModels models env (.recording args)) := by
        simp only [resumeAlone, Call.step, indexModelsStep, resumeWith, upserted]
      rw [wrote, recording_alone cfg env models args t _ (by omega)]
      cases recorded : (DatabaseIndexApi.recordIndexedModels cfg env args).run t <;>
        simp only [recorded] <;> exact ⟨_, _, rfl, by simp [Call.returned, Call.threw], rfl⟩

/-- A `stopIndexingModels` call run alone ends within two steps, and returns or throws as
`LocalIndexApi.stopIndexingModels` does, leaving the same registry. -/
theorem solo_stopIndexingModels (models : List StreamID) (s : IndexState) :
    ∃ t c, (resumeAlone cfg)^[2] (s, .stopIndexingModels models .called) = (t, c) ∧
      (c.returned = true ∨ c.threw = true) ∧
      (LocalIndexApi.stopIndexingModels cfg models).run (some s) = c.result t := by
  simp only [LocalIndexApi.stopIndexingModels, DatabaseIndexApi.stopIndexingModels, run_bind,
    optionalCall_run, Function.iterate_succ_apply, Function.iterate_zero_apply, resumeAlone, Call.step,
    stopIndexingModelsStep, resumeWith]
  cases (DatabaseIndexApi.stopIndexingModelsInDatabase cfg models).run s <;>
    exact ⟨_, _, rfl, by simp [Call.returned, Call.threw], rfl⟩

end Alone

/-! ## The invariant -/

/-- What holds of the registry while calls are in flight, as long as none has thrown: a listed
model has an `is_indexed = true` row unless a stop call is about to filter it out; such a row
belongs to a listed model unless an index call is about to push it; and a model a stop call has
upserted stays out of every index call still to push. -/
structure Agrees (s : IndexState) (calls : List Call) : Prop where
  listed : ∀ m ∈ s.indexedModels, s.config.lookup m = some true ∨ ∃ c ∈ calls, m ∈ c.filtering
  rows : ∀ m, s.config.lookup m = some true → m ∈ s.indexedModels ∨ ∃ c ∈ calls, m ∈ c.pushing
  pushing_true : ∀ c ∈ calls, ∀ m ∈ c.pushing, s.config.lookup m = some true
  stopping_false : ∀ c ∈ calls, ∀ m ∈ c.stopping, s.config.lookup m = some false
  stopped_absent : ∀ c ∈ calls, ∀ m ∈ c.stopped, m ∉ s.indexedModels
  stopping_not_pending : ∀ c ∈ calls, ∀ d ∈ calls, ∀ m ∈ c.stopping, m ∉ d.pending
  pending_given : ∀ c ∈ calls, ∀ m ∈ c.pending, m ∈ c.indexes

section Slot

variable {pre post : List Call} {c c' d : Call}

theorem mem_here : c ∈ pre ++ c :: post := List.mem_append_right _ (List.mem_cons_self _ _)

theorem mem_slot (mem : d ∈ pre ++ c' :: post) : d = c' ∨ d ∈ pre ++ c :: post := by
  simp only [List.mem_append, List.mem_cons] at mem ⊢
  tauto

theorem forall_slot {P : Call → Prop} (old : ∀ d ∈ pre ++ c :: post, P d) (new : P c') :
    ∀ d ∈ pre ++ c' :: post, P d :=
  fun d mem => (mem_slot mem).elim (fun same => same ▸ new) (old d)

theorem exists_slot {P : Call → Prop} (notOld : ¬P c) :
    (∃ d ∈ pre ++ c :: post, P d) → ∃ d ∈ pre ++ c' :: post, P d
  | ⟨d, mem, holds⟩ =>
    (mem_slot mem).elim (fun same => absurd (same ▸ holds) notOld) fun mem => ⟨d, mem, holds⟩

/-- A call whose views shrink keeps a model a stop call upserted out of every call still to push. -/
theorem stopping_not_pending_slot
    (old : ∀ e ∈ pre ++ c :: post, ∀ f ∈ pre ++ c :: post, ∀ m ∈ e.stopping, m ∉ f.pending)
    (stopping : ∀ m ∈ c'.stopping, m ∈ c.stopping) (pending : ∀ m ∈ c'.pending, m ∈ c.pending) :
    ∀ e ∈ pre ++ c' :: post, ∀ d ∈ pre ++ c' :: post, ∀ m ∈ e.stopping, m ∉ d.pending := by
  intro e emem d dmem m stop pend
  rcases mem_slot (c := c) emem with rfl | eold <;> rcases mem_slot (c := c) dmem with rfl | dold
  · exact old c (by simp) c (by simp) m (stopping m stop) (pending m pend)
  · exact old c (by simp) d dold m (stopping m stop) pend
  · exact old e eold c (by simp) m stop (pending m pend)
  · exact old e eold d dold m stop pend

end Slot

namespace Call

theorem stopping_of_stopped : ∀ {c : Call} {m : StreamID}, m ∈ c.stopped → m ∈ c.stopping
  | .stopIndexingModels _ .returned, _, mem => mem

theorem pending_of_pushing : ∀ {c : Call} {m : StreamID}, m ∈ c.pushing → m ∈ c.pending
  | .indexModels _ _ (.recording _), _, mem => mem

theorem inProgress_of_pending : ∀ {c : Call} {m : StreamID}, m ∈ c.pending → c.inProgress = true
  | .indexModels _ _ (.upserting _), _, _ | .indexModels _ _ (.recording _), _, _ => rfl

/-- A call that has taken no step holds no model in flight. -/
theorem views_of_called : ∀ {c : Call}, c.called = true →
    c.pending = [] ∧ c.pushing = [] ∧ c.stopping = [] ∧ c.stopped = []
  | .indexModels _ _ .called, _ | .stopIndexingModels _ .called, _ => ⟨rfl, rfl, rfl, rfl⟩

/-- A call that returned holds no model in flight, and a stop call that returned stopped all of its
models. -/
theorem views_of_returned : ∀ {c : Call}, c.returned = true →
    c.pushing = [] ∧ c.filtering = [] ∧ c.stopped = c.stops ∧ c.threw = false
  | .indexModels _ _ .returned, _ | .stopIndexingModels _ .returned, _ => ⟨rfl, rfl, rfl, rfl⟩

theorem step_stops (cfg : IndexConfig) (s : IndexState) : ∀ c : Call, (c.step cfg s).2.stops = c.stops
  | .indexModels _ _ _ | .stopIndexingModels _ _ => rfl

end Call

theorem upsertModels_lookup_uniform {backend : Backend} {models : List StreamID} {flag : Bool}
    {config config' : ConfigTable} (upsert : upsertModels backend models flag flag config = .ok config')
    (x : StreamID) : config'.lookup x = if x ∈ models then some flag else config.lookup x := by
  split
  · simpa using upsertModels_lookup_of_mem upsert ‹_›
  · exact upsertModels_lookup_of_not_mem upsert ‹_›

section Preserve

variable {cfg : IndexConfig} {s : IndexState} {pre post : List Call}

theorem Agrees.collect {models : List StreamID} {env : Collaborators} {args : List IndexModelArgs}
    (agrees : Agrees s (pre ++ .indexModels models env .called :: post))
    (collected : LocalIndexApi.collectIndexModelArgs cfg env (some (modelsWhere s.config false))
      models = .ok args) :
    Agrees s (pre ++ .indexModels models env (.upserting args) :: post) := by
  obtain ⟨same, unlisted⟩ := collectIndexModelArgs_ok cfg env collected
  refine ⟨fun m mem => (agrees.listed m mem).imp_right (exists_slot (by simp [Call.filtering])),
    fun m row => (agrees.rows m row).imp_right (exists_slot (by simp [Call.pushing])),
    forall_slot agrees.pushing_true (by simp [Call.pushing]),
    forall_slot agrees.stopping_false (by simp [Call.stopping]),
    forall_slot agrees.stopped_absent (by simp [Call.stopped]), ?_,
    forall_slot agrees.pending_given (by simp [Call.pending, Call.indexes, same])⟩
  intro c cmem d dmem m stopping
  rcases mem_slot cmem with rfl | cold
  · simp [Call.stopping] at stopping
  · rcases mem_slot dmem with rfl | dold
    · have row := agrees.stopping_false c cold m stopping
      simpa [Call.pending, same, mem_modelsWhere.mpr row] using unlisted m
    · exact agrees.stopping_not_pending c cold d dold m stopping

theorem Agrees.upsert {models : List StreamID} {env : Collaborators} {args : List IndexModelArgs}
    {config : ConfigTable} (agrees : Agrees s (pre ++ .indexModels models env (.upserting args) :: post))
    (upserted : upsertModels cfg.backend (args.map (·.model)) true true s.config = .ok config) :
    Agrees { s with config } (pre ++ .indexModels models env (.recording args) :: post) := by
  have lookup := upsertModels_lookup_uniform upserted
  have kept : ∀ m, s.config.lookup m = some true → config.lookup m = some true := fun m row => by
    rw [lookup]; split <;> simp [row]
  refine ⟨fun m mem => ?_, fun m row => ?_, ?_, ?_,
    forall_slot agrees.stopped_absent (by simp [Call.stopped]),
    stopping_not_pending_slot agrees.stopping_not_pending (by simp [Call.stopping]) (by simp [Call.pending]),
    forall_slot agrees.pending_given
      (agrees.pending_given (.indexModels models env (.upserting args)) mem_here)⟩
  · rcases agrees.listed m mem with row | filtered
    · exact .inl (kept m row)
    · exact .inr (exists_slot (by simp [Call.filtering]) filtered)
  · by_cases upserting : m ∈ args.map (·.model)
    · exact .inr ⟨_, mem_here, upserting⟩
    · rw [lookup, if_neg upserting] at row
      exact (agrees.rows m row).imp_right (exists_slot (by simp [Call.pushing]))
  · refine forall_slot (fun d dmem m mem => kept m (agrees.pushing_true d dmem m mem)) ?_
    intro m mem
    rw [lookup, if_pos (show m ∈ args.map (·.model) from mem)]
  · refine forall_slot (c := .indexModels models env (.upserting args)) (fun d dmem m mem => ?_)
      (by simp [Call.stopping])
    have fresh : m ∉ args.map (·.model) := agrees.stopping_not_pending d dmem _ mem_here m mem
    rw [lookup, if_neg fresh, agrees.stopping_false d dmem m mem]

theorem Agrees.push {models : List StreamID} {env : Collaborators} {modelArgs : IndexModelArgs}
    {rest : List IndexModelArgs}
    (agrees : Agrees s (pre ++ .indexModels models env (.recording (modelArgs :: rest)) :: post)) :
    Agrees (s.record modelArgs) (pre ++ .indexModels models env (.recording rest) :: post) := by
  have here : Call.indexModels models env (.recording (modelArgs :: rest)) ∈
      pre ++ .indexModels models env (.recording (modelArgs :: rest)) :: post := mem_here
  have pushed := agrees.pushing_true _ here modelArgs.model (by simp [Call.pushing])
  refine ⟨fun m mem => ?_, fun m row => ?_,
    forall_slot agrees.pushing_true fun m mem => agrees.pushing_true _ here m (by
      simp only [Call.pushing, List.map_cons, List.mem_cons] at mem ⊢; exact .inr mem),
    forall_slot agrees.stopping_false (by simp [Call.stopping]),
    forall_slot (c := .indexModels models env (.recording (modelArgs :: rest)))
      (fun d dmem m stopped mem => ?_) (by simp [Call.stopped]),
    stopping_not_pending_slot agrees.stopping_not_pending (by simp [Call.stopping])
      (by simp [Call.pending]; tauto),
    forall_slot agrees.pending_given fun m mem => agrees.pending_given _ here m (by
      simp only [Call.pending, List.map_cons, List.mem_cons] at mem ⊢; exact .inr mem)⟩
  · rcases mem_record.mp mem with old | rfl
    · exact (agrees.listed m old).imp_right (exists_slot (by simp [Call.filtering]))
    · exact .inl pushed
  · rcases agrees.rows m row with listed | ⟨d, dmem, pushing⟩
    · exact .inl (mem_record.mpr (.inl listed))
    · rcases mem_slot dmem with rfl | old
      · simp only [Call.pushing, List.map_cons, List.mem_cons] at pushing
        rcases pushing with rfl | later
        · exact .inl (mem_record.mpr (.inr rfl))
        · exact .inr ⟨_, mem_here, later⟩
      · exact .inr ⟨d, old, pushing⟩
  · rcases mem_record.mp mem with old | rfl
    · exact agrees.stopped_absent d dmem m stopped old
    · exact agrees.stopping_not_pending d dmem _ here _ (Call.stopping_of_stopped stopped)
        (by simp [Call.pending])

theorem Agrees.finish {models : List StreamID} {env : Collaborators}
    (agrees : Agrees s (pre ++ .indexModels models env (.recording []) :: post)) :
    Agrees s (pre ++ .indexModels models env .returned :: post) :=
  ⟨fun m mem => (agrees.listed m mem).imp_right (exists_slot (by simp [Call.filtering])),
    fun m row => (agrees.rows m row).imp_right (exists_slot (by simp [Call.pushing])),
    forall_slot agrees.pushing_true (by simp [Call.pushing]),
    forall_slot agrees.stopping_false (by simp [Call.stopping]),
    forall_slot agrees.stopped_absent (by simp [Call.stopped]),
    stopping_not_pending_slot agrees.stopping_not_pending (by simp [Call.stopping])
      (by simp [Call.pending]),
    forall_slot agrees.pending_given (by simp [Call.pending])⟩

theorem Agrees.stop {models : List StreamID} {config : ConfigTable}
    (agrees : Agrees s (pre ++ .stopIndexingModels models .called :: post))
    (upserted : upsertModels cfg.backend models false false s.config = .ok config)
    (separated : Separated ⟨{ s with config }, pre ++ .stopIndexingModels models .filtering :: post⟩) :
    Agrees { s with config } (pre ++ .stopIndexingModels models .filtering :: post) := by
  have lookup := upsertModels_lookup_uniform upserted
  have here : Call.stopIndexingModels models .filtering ∈
      pre ++ .stopIndexingModels models .filtering :: post := mem_here
  have apart : ∀ d ∈ pre ++ .stopIndexingModels models .filtering :: post, ∀ m ∈ d.pending, m ∉ models :=
    fun d dmem m mem => separated d dmem _ here (Call.inProgress_of_pending mem) rfl m
      (by rcases mem_slot (c := .stopIndexingModels models .called) dmem with rfl | old
          · simp [Call.pending] at mem
          · exact agrees.pending_given d old m mem)
  refine ⟨fun m mem => ?_, fun m row => ?_, ?_, ?_,
    forall_slot agrees.stopped_absent (by simp [Call.stopped]), ?_,
    forall_slot agrees.pending_given (by simp [Call.pending])⟩
  · by_cases stopping : m ∈ models
    · exact .inr ⟨_, here, stopping⟩
    · rw [lookup, if_neg stopping]
      exact (agrees.listed m mem).imp_right (exists_slot (by simp [Call.filtering]))
  · have fresh : m ∉ models := fun stopping => by simp [lookup, stopping] at row
    rw [lookup, if_neg fresh] at row
    exact (agrees.rows m row).imp_right (exists_slot (by simp [Call.pushing]))
  · refine forall_slot (c := .stopIndexingModels models .called) (fun d dmem m mem => ?_)
      (by simp [Call.pushing])
    rcases mem_slot (c := .stopIndexingModels models .filtering) dmem with rfl | new
    · simp [Call.pushing] at mem
    · rw [lookup, if_neg (apart d new m (Call.pending_of_pushing mem)),
        agrees.pushing_true d dmem m mem]
  · refine forall_slot (c := .stopIndexingModels models .called) (fun d dmem m mem => ?_)
      fun m mem => by rw [lookup, if_pos (show m ∈ models from mem)]
    rw [lookup]
    split
    · rfl
    · exact agrees.stopping_false d dmem m mem
  · intro c cmem d dmem m stopping pending
    rcases mem_slot (c := .stopIndexingModels models .called) cmem with rfl | cold
    · exact apart d dmem m pending stopping
    · rcases mem_slot (c := .stopIndexingModels models .called) dmem with rfl | dold
      · simp [Call.pending] at pending
      · exact agrees.stopping_not_pending c cold d dold m stopping pending

theorem Agrees.filter {models : List StreamID}
    (agrees : Agrees s (pre ++ .stopIndexingModels models .filtering :: post)) :
    Agrees { s with indexedModels := s.indexedModels.filter fun model => model ∉ models }
      (pre ++ .stopIndexingModels models .returned :: post) := by
  have here : Call.stopIndexingModels models .filtering ∈
      pre ++ .stopIndexingModels models .filtering :: post := mem_here
  have stopped : ∀ m ∈ models, s.config.lookup m = some false :=
    agrees.stopping_false _ here
  refine ⟨fun m mem => ?_, fun m row => ?_,
    forall_slot agrees.pushing_true (by simp [Call.pushing]),
    forall_slot agrees.stopping_false stopped,
    forall_slot (c := .stopIndexingModels models .filtering)
      (fun d dmem m absent mem => agrees.stopped_absent d dmem m absent (List.mem_filter.mp mem).1)
      fun m mem filtered => by simp [show m ∈ models from mem] at filtered,
    stopping_not_pending_slot agrees.stopping_not_pending (fun m mem => mem) (by simp [Call.pending]),
    forall_slot agrees.pending_given (by simp [Call.pending])⟩
  · obtain ⟨mem, kept⟩ := List.mem_filter.mp mem
    refine (agrees.listed m mem).imp_right fun ⟨d, dmem, filtering⟩ => ?_
    rcases mem_slot (c := .stopIndexingModels models .returned) dmem with rfl | old
    · exact absurd filtering (by simpa using kept)
    · exact ⟨d, old, filtering⟩
  · have fresh : m ∉ models := fun stopping => by simp [stopped m stopping] at row
    refine (agrees.rows m row).imp (fun mem => List.mem_filter.mpr ⟨mem, by simpa using fresh⟩)
      (exists_slot (by simp [Call.pushing]))

end Preserve

/-! ## Runs -/

section Runs

variable {cfg : IndexConfig}

/-- The invariant of a run: some call threw, or the registry agrees with the calls in flight. -/
def Holds (w : World) : Prop :=
  (∃ c ∈ w.calls, c.threw = true) ∨ Agrees w.registry w.calls

theorem Resume.agrees {s s' : IndexState} {c c' : Call} {pre post : List Call}
    (resume : Resume cfg s c s' c') (default : cfg.isIndexedDefault = true)
    (agrees : Agrees s (pre ++ c :: post)) (separated : Separated ⟨s', pre ++ c' :: post⟩) :
    Agrees s' (pre ++ c' :: post) := by
  cases resume with
  | collect collected => exact agrees.collect collected
  | upsert upserted => exact agrees.upsert (default ▸ upserted)
  | push => exact agrees.push
  | finish => exact agrees.finish
  | stop upserted => exact agrees.stop upserted separated
  | filter => exact agrees.filter

theorem Resume.not_threw {s s' : IndexState} {c c' : Call} (resume : Resume cfg s c s' c') :
    c.threw = false := by
  cases resume <;> rfl

/-- One step of the scheduler keeps the invariant when the world after it is separated. -/
theorem Holds.advance (default : cfg.isIndexedDefault = true) {w : World} (holds : Holds w) (i : Nat)
    (separated : Separated (w.advance cfg i)) : Holds (w.advance cfg i) := by
  rcases advance_cases cfg w i with same | ⟨pre, c, post, calls, advanced⟩
  · rwa [same]
  rw [advanced] at separated ⊢
  unfold Holds at holds
  rw [calls] at holds
  rcases step_cases cfg w.registry c with threw | still | resume
  · exact .inl ⟨_, mem_here, threw⟩
  · rw [still]
    exact holds
  · rcases holds with ⟨d, dmem, threw⟩ | agrees
    · refine .inl ?_
      rcases mem_slot (c := (c.step cfg w.registry).2) dmem with rfl | other
      · rw [resume.not_threw] at threw
        cases threw
      · exact ⟨d, other, threw⟩
    · exact .inr (resume.agrees default agrees separated)

/-- The invariant holds after every schedule whose worlds are all separated. -/
theorem Holds.run (default : cfg.isIndexedDefault = true) :
    ∀ (schedule : List Nat) {w : World}, Holds w →
      (∀ k ≤ schedule.length, Separated (w.run cfg (schedule.take k))) → Holds (w.run cfg schedule)
  | [], _, holds, _ => holds
  | i :: schedule, w, holds, separated =>
    Holds.run default schedule (holds.advance default i (separated 1 (by simp)))
      fun k le => separated (k + 1) (by simp [le])

theorem run_stops (w : World) : ∀ schedule : List Nat,
    (w.run cfg schedule).calls.flatMap Call.stops = w.calls.flatMap Call.stops
  | [] => rfl
  | i :: schedule => by
    rw [World.run, run_stops (w.advance cfg i) schedule]
    rcases advance_cases cfg w i with same | ⟨pre, c, post, calls, advanced⟩
    · rw [same]
    · simp only [advanced, calls, List.flatMap_append, List.flatMap_cons, Call.step_stops]

/-- Calls that have all returned, after a run where no call that indexes a model was in progress
while a call that stops it was, leave the in-memory list and the `is_indexed = true` rows agreeing,
and every model a stop call was given stopped. -/
theorem separated_calls_agree (default : cfg.isIndexedDefault = true) {w : World}
    (consistent : Consistent w.registry) (called : ∀ c ∈ w.calls, c.called = true)
    {schedule : List Nat} (separated : ∀ k ≤ schedule.length, Separated (w.run cfg (schedule.take k)))
    (returned : ∀ c ∈ (w.run cfg schedule).calls, c.returned = true) :
    Consistent (w.run cfg schedule).registry ∧
      ∀ m ∈ w.calls.flatMap Call.stops, Stopped m (w.run cfg schedule).registry := by
  have initial : Agrees w.registry w.calls := by
    refine ⟨fun m mem => .inl ((consistent m).mp mem), fun m row => .inl ((consistent m).mpr row),
      ?_, ?_, ?_, ?_, ?_⟩ <;> intro c mem <;>
      obtain ⟨pending, pushing, stopping, stopped⟩ := Call.views_of_called (called c mem) <;>
      simp [pending, pushing, stopping, stopped]
  rcases Holds.run default schedule (.inr initial) separated with ⟨c, mem, threw⟩ | agrees
  · simp [(Call.views_of_returned (returned c mem)).2.2.2] at threw
  refine ⟨fun m => ⟨fun mem => ?_, fun row => ?_⟩, fun m mem => ?_⟩
  · refine (agrees.listed m mem).resolve_right fun ⟨c, cmem, filtering⟩ => ?_
    simp [(Call.views_of_returned (returned c cmem)).2.1] at filtering
  · refine (agrees.rows m row).resolve_right fun ⟨c, cmem, pushing⟩ => ?_
    simp [(Call.views_of_returned (returned c cmem)).1] at pushing
  · rw [← run_stops w schedule, List.mem_flatMap] at mem
    obtain ⟨c, cmem, stops⟩ := mem
    rw [← (Call.views_of_returned (returned c cmem)).2.2.1] at stops
    exact ⟨agrees.stopping_false c cmem m (Call.stopping_of_stopped stops),
      agrees.stopped_absent c cmem m stops⟩

/-- Two `indexModels` calls on the sample model, interleaved, and a `stopIndexingModels` call on
it made once both have returned. -/
def separatedWorld : World :=
  ⟨emptyRegistry, [.indexModels [sampleModel] syncedEnv .called,
    .indexModels [sampleModel] syncedEnv .called, .stopIndexingModels [sampleModel] .called]⟩

/-- The schedule of `separatedWorld`. -/
def separatedSchedule : List Nat := [0, 1, 0, 1, 0, 1, 0, 1, 2, 2]

theorem separated_world_agrees :
    sampleConfig.isIndexedDefault = true ∧ Consistent separatedWorld.registry ∧
      (∀ c ∈ separatedWorld.calls, c.called = true) ∧
      (∀ k ≤ separatedSchedule.length,
        Separated (separatedWorld.run sampleConfig (separatedSchedule.take k))) ∧
      (∀ c ∈ (separatedWorld.run sampleConfig separatedSchedule).calls, c.returned = true) ∧
      Consistent (separatedWorld.run sampleConfig separatedSchedule).registry ∧
      ∀ m ∈ separatedWorld.calls.flatMap Call.stops,
        Stopped m (separatedWorld.run sampleConfig separatedSchedule).registry := by
  have consistent : Consistent separatedWorld.registry := fun m => by
    simp [separatedWorld, emptyRegistry, AList.lookup_empty]
  have called : ∀ c ∈ separatedWorld.calls, c.called = true := by decide
  have separated : ∀ k ≤ separatedSchedule.length,
      Separated (separatedWorld.run sampleConfig (separatedSchedule.take k)) := by decide
  have returned : ∀ c ∈ (separatedWorld.run sampleConfig separatedSchedule).calls, c.returned = true := by
    decide
  exact ⟨rfl, consistent, called, separated, returned,
    separated_calls_agree rfl consistent called separated returned⟩

end Runs

/-! ## Every interleaving -/

section Any

variable (cfg : IndexConfig)

theorem step_threw_registry (s : IndexState) :
    ∀ c : Call, (c.step cfg s).2.threw = true → (c.step cfg s).1 = s
  | .indexModels models env .called, _ => by
    simp only [Call.step, indexModelsStep]
    split <;> rfl
  | .indexModels models env (.upserting args), threw => by
    revert threw
    simp only [Call.step, indexModelsStep, resumeWith, indexModelsInDatabase_run]
    split_ifs
    · exact nofun
    · rcases env.prepareTables args with _ | ⟨⟨⟩⟩
      · exact fun _ => rfl
      · cases upsertModels cfg.backend (args.map (·.model)) cfg.isIndexedDefault true s.config with
        | error => exact fun _ => rfl
        | ok config => exact nofun
  | .indexModels models env (.recording []), threw => by cases threw
  | .indexModels models env (.recording (modelArgs :: rest)), threw => by
    simp only [Call.step, indexModelsStep] at threw ⊢
    split at threw
    · cases threw
    · rfl
  | .indexModels models env .returned, _ | .indexModels models env (.threw _), _ => rfl
  | .stopIndexingModels models .called, threw => by
    revert threw
    simp only [Call.step, stopIndexingModelsStep, resumeWith,
      DatabaseIndexApi.stopIndexingModelsInDatabase]
    split_ifs
    · exact nofun
    · simp only [run_bind, run_get, run_pure]
      cases upsertModels cfg.backend models false false s.config with
      | error => exact fun _ => rfl
      | ok config => exact nofun
  | .stopIndexingModels models .filtering, threw => by cases threw
  | .stopIndexingModels models .returned, _ | .stopIndexingModels models (.threw _), _ => rfl

/-- A step either writes nothing or is one of the `Resume` steps. -/
theorem step_registry (s : IndexState) (c : Call) :
    (c.step cfg s).1 = s ∨ Resume cfg s c (c.step cfg s).1 (c.step cfg s).2 := by
  rcases step_cases cfg s c with threw | still | resume
  · exact .inl (step_threw_registry cfg s c threw)
  · exact .inl (by rw [still])
  · exact .inr resume

theorem Resume.nodup {s s' : IndexState} {c c' : Call} (resume : Resume cfg s c s' c')
    (nodup : s.indexedModels.Nodup) : s'.indexedModels.Nodup := by
  cases resume with
  | push => exact record_nodup _ nodup
  | filter => exact nodup.filter _
  | collect _ | upsert _ | finish | stop _ => exact nodup

/-- Whatever the schedule, and however the calls end, the in-memory list never holds a model
twice: the check before a push and the push run with no await between them. -/
theorem interleaved_indexedModels_nodup :
    ∀ (schedule : List Nat) {w : World}, w.registry.indexedModels.Nodup →
      (w.run cfg schedule).registry.indexedModels.Nodup
  | [], _, nodup => nodup
  | i :: schedule, w, nodup => by
    refine interleaved_indexedModels_nodup schedule ?_
    rcases advance_cases cfg w i with same | ⟨pre, c, post, -, advanced⟩
    · rwa [same]
    · rw [advanced]
      show (c.step cfg w.registry).1.indexedModels.Nodup
      rcases step_registry cfg w.registry c with same | resume
      · rwa [same]
      · exact resume.nodup cfg nodup

theorem raced_world_nodup :
    racedWorld.registry.indexedModels.Nodup ∧
      (racedWorld.run sampleConfig [0, 0, 1, 1, 0, 0]).registry.indexedModels.Nodup :=
  ⟨by decide, interleaved_indexedModels_nodup sampleConfig [0, 0, 1, 1, 0, 0] (by decide)⟩

/-! ## Calls one after another -/

/-- The steps a call takes from its start to its end when nothing else runs: `indexModels`
collects, upserts, pushes each of its models and returns; `stopIndexingModels` upserts and
filters. -/
def Call.steps : Call → Nat
  | .indexModels models _ _ => models.length + 3
  | .stopIndexingModels _ _ => 2

/-- The schedule that runs the calls from place `i` on one after another, each to its end. -/
def serialFrom : Nat → List Call → List Nat
  | _, [] => []
  | i, c :: calls => List.replicate c.steps i ++ serialFrom (i + 1) calls

/-- The sequential call a call stands for. A `stopIndexingModels` call consults no collaborator,
so it is given `env`. -/
def Call.sequential (env : Collaborators) : Call → IndexCall × Collaborators
  | .indexModels models env' _ => (.indexModels (some models), env')
  | .stopIndexingModels models _ => (.stopIndexingModels models, env)

theorem World.run_append (w : World) (first second : List Nat) :
    w.run cfg (first ++ second) = (w.run cfg first).run cfg second := by
  induction first generalizing w with
  | nil => rfl
  | cons i first ih => exact ih (w.advance cfg i)

/-- Resuming one call `n` times in a row runs it alone. -/
theorem run_replicate {w : World} {i : Nat} {c : Call} (found : w.calls[i]? = some c) (n : Nat) :
    w.run cfg (List.replicate n i) =
      ⟨((resumeAlone cfg)^[n] (w.registry, c)).1,
        w.calls.set i ((resumeAlone cfg)^[n] (w.registry, c)).2⟩ := by
  induction n generalizing w c with
  | zero =>
    have same : w.calls.set i c = w.calls := List.ext_getElem? fun j => by
      rw [List.getElem?_set]
      split_ifs <;> simp_all [List.getElem?_eq_none]
    rw [Function.iterate_zero_apply, same]
    rfl
  | succ n ih =>
    have lt : i < w.calls.length := (List.getElem?_eq_some_iff.mp found).1
    rw [List.replicate_succ, World.run, World.advance, found]
    dsimp only
    rw [ih (c := (c.step cfg w.registry).2) (by simp [lt]), Function.iterate_succ_apply,
      List.set_set]
    rfl

theorem Call.leaves_result (t : IndexState) (c : Call) : leaves (c.result t) = some t := by
  unfold Call.result; split <;> rfl

/-- A call that has not started runs alone to its end as its sequential call does. -/
theorem called_alone (env : Collaborators) (s : IndexState) :
    ∀ c : Call, c.called = true → ∃ t c', (resumeAlone cfg)^[c.steps] (s, c) = (t, c') ∧
      (c'.returned = true ∨ c'.threw = true) ∧ step cfg (some s) (c.sequential env) = some t
  | .indexModels models env' .called, _ => by
    obtain ⟨t, c', ran, ended, result⟩ := solo_indexModels cfg env' models s
    exact ⟨t, c', ran, ended, by rw [step, Call.sequential, IndexCall.program, result, Call.leaves_result]⟩
  | .stopIndexingModels models .called, _ => by
    obtain ⟨t, c', ran, ended, result⟩ := solo_stopIndexingModels cfg models s
    exact ⟨t, c', ran, ended, by rw [step, Call.sequential, IndexCall.program, result, Call.leaves_result]⟩
  | .indexModels _ _ (.upserting _), h | .indexModels _ _ (.recording _), h
  | .indexModels _ _ .returned, h | .indexModels _ _ (.threw _), h
  | .stopIndexingModels _ .filtering, h | .stopIndexingModels _ .returned, h
  | .stopIndexingModels _ (.threw _), h => nomatch h

/-- Calls after `pre`, run one after another to their ends, leave the registry the sequential
replay of their calls leaves, and every call ends. -/
theorem serialFrom_replays (env : Collaborators) :
    ∀ (calls pre : List Call) (s : IndexState), (∀ c ∈ pre, c.returned = true ∨ c.threw = true) →
      (∀ c ∈ calls, c.called = true) →
      replay cfg (some s) (calls.map (Call.sequential env)) =
          some ((World.mk s (pre ++ calls)).run cfg (serialFrom pre.length calls)).registry ∧
        ∀ c ∈ ((World.mk s (pre ++ calls)).run cfg (serialFrom pre.length calls)).calls,
          c.returned = true ∨ c.threw = true
  | [], pre, s, ended, _ => ⟨rfl, by simpa using ended⟩
  | c :: calls, pre, s, ended, called => by
    obtain ⟨t, c', ran, over, stepped⟩ :=
      called_alone cfg env s c (called c (List.mem_cons_self _ _))
    have found : (World.mk s (pre ++ c :: calls)).calls[pre.length]? = some c := by
      rw [List.getElem?_append_right (le_refl _), Nat.sub_self, List.getElem?_cons_zero]
    have alone := run_replicate cfg found c.steps
    rw [ran] at alone
    have moved : (pre ++ c :: calls).set pre.length c' = (pre ++ [c']) ++ calls := by simp
    obtain ⟨replays, done⟩ := serialFrom_replays env calls (pre ++ [c']) t
      (by simpa [or_imp, forall_and] using And.intro ended over)
      fun d mem => called d (List.mem_cons_of_mem _ mem)
    rw [List.length_append, List.length_singleton] at replays done
    rw [serialFrom, World.run_append, alone]
    dsimp only
    rw [moved]
    exact ⟨by rw [List.map_cons, replay, List.foldl_cons, stepped]; exact replays, done⟩

/-- Calls that have not started, run one after another each to its end, leave the registry
that the sequential replay of the same calls leaves, and each of them returns or throws. -/
theorem serial_schedule_replays (env : Collaborators) {w : World}
    (called : ∀ c ∈ w.calls, c.called = true) :
    replay cfg (some w.registry) (w.calls.map (Call.sequential env)) =
        some (w.run cfg (serialFrom 0 w.calls)).registry ∧
      ∀ c ∈ (w.run cfg (serialFrom 0 w.calls)).calls, c.returned = true ∨ c.threw = true :=
  serialFrom_replays cfg env w.calls [] w.registry (by simp) called

theorem raced_world_serial :
    (∀ c ∈ racedWorld.calls, c.called = true) ∧
      replay sampleConfig (some racedWorld.registry) (racedWorld.calls.map (Call.sequential sampleEnv)) =
        some (racedWorld.run sampleConfig (serialFrom 0 racedWorld.calls)).registry ∧
      ∀ c ∈ (racedWorld.run sampleConfig (serialFrom 0 racedWorld.calls)).calls,
        c.returned = true ∨ c.threw = true :=
  have called : ∀ c ∈ racedWorld.calls, c.called = true := by decide
  ⟨called, serial_schedule_replays sampleConfig sampleEnv called⟩

end Any

end Ceramic.IndexInterleavings
