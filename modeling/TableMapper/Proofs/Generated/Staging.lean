/-
TableMapper.Proofs.Generated.Staging — the files of a run, staged in
whatever order the mappers come to an end.

A run has one task for each mapper, and all tasks share one staging
list. A task is polled until it has ended: it may pause first, and then
either fails or stages all its files at once. `Poll` is one step of a
run, and `Run` a sequence of steps with the mappers whose tasks ended,
in that order. What a poll does to one task (section 1) is carried over
to a step and then, by induction, to a run.
-/
import TableMapper.Proofs.Generated.RunFailure

namespace TableMapper

open TypeScript (Style)

/-! ## 1. Tasks -/

/-- A way to generate the files of a mapper. -/
abbrev Generator := Mapper → Except MapperError (List SourceFile)

/-- The files that are staged for a mapper: none if it fails. -/
def filesOf (generate : Generator) (m : Mapper) : List SourceFile :=
  match generate m with
  | .ok files => files
  | .error _ => []

/-- The task of a mapper: how often it will still pause, and how it
ended, once it has. -/
structure StageTask where
  mapper : Mapper
  pauses : Nat := 0
  ending : Option (Except MapperError Unit) := none

namespace StageTask

variable (generate : Generator)

/-- Polls a task: one that has ended is left alone. -/
def poll (t : StageTask) (staging : Staging) : StageTask × Staging :=
  match t.ending, t.pauses with
  | some _, _ => (t, staging)
  | none, pauses + 1 => ({ t with pauses := pauses }, staging)
  | none, 0 =>
    match generate t.mapper with
    | .error e => ({ t with ending := some (.error e) }, staging)
    | .ok files => ({ t with ending := some (.ok ()) }, staging.stage files)

/-- The mapper of a task that has not ended. -/
def waiting (t : StageTask) : List Mapper :=
  match t.ending with
  | none => [t.mapper]
  | some _ => []

/-- The mapper of a task that ends when it is polled. -/
def ready (t : StageTask) : List Mapper :=
  match t.ending, t.pauses with
  | none, 0 => [t.mapper]
  | _, _ => []

/-- A task that has ended did so as its mapper does. -/
def Faithful (t : StageTask) : Prop :=
  ∀ r, t.ending = some r → r = (generate t.mapper).map fun _ => ()

/-- All that a poll can do: leave a task alone that has ended, let one
pause, or bring one to an end, by failing or with its files staged. -/
theorem poll_cases (t : StageTask) (staging : Staging) :
    (t.ready = [] ∧ t.waiting = [] ∧ t.poll generate staging = (t, staging)) ∨
    (t.ready = [] ∧ t.ending = none ∧
      ∃ pauses, t.pauses = pauses + 1 ∧
        t.poll generate staging = ({ t with pauses := pauses }, staging)) ∨
    (t.ready = [t.mapper] ∧ t.ending = none ∧
      t.poll generate staging =
        ({ t with ending := some ((generate t.mapper).map fun _ => ()) },
          staging.stage (filesOf generate t.mapper))) := by
  obtain ⟨m, pauses, ending⟩ := t
  cases ending with
  | some r => exact .inl ⟨rfl, rfl, rfl⟩
  | none =>
    cases pauses with
    | succ pauses => exact .inr (.inl ⟨rfl, rfl, pauses, rfl, rfl⟩)
    | zero =>
      refine .inr (.inr ⟨rfl, rfl, ?_⟩)
      simp only [poll, filesOf]
      cases generate m with
      | error e => simp [Except.map, Staging.stage]
      | ok files => simp [Except.map]

theorem mapper_poll (t : StageTask) (staging : Staging) :
    (t.poll generate staging).1.mapper = t.mapper := by
  rcases t.poll_cases generate staging with ⟨-, -, h⟩ | ⟨-, -, pauses, -, h⟩ | ⟨-, -, h⟩ <;> rw [h]

/-- A poll adds the files of a task that ends, and nothing else. -/
theorem files_poll (t : StageTask) (staging : Staging) :
    (t.poll generate staging).2.files =
      staging.files ++ t.ready.flatMap (filesOf generate) := by
  rcases t.poll_cases generate staging with ⟨hr, -, h⟩ | ⟨hr, -, pauses, -, h⟩ | ⟨hr, -, h⟩
  · simp [h, hr]
  · simp [h, hr]
  · simp [h, hr, Staging.stage]

theorem waiting_poll (t : StageTask) (staging : Staging) :
    t.waiting = t.ready ++ (t.poll generate staging).1.waiting := by
  rcases t.poll_cases generate staging with ⟨hr, -, h⟩ | ⟨hr, hnone, pauses, -, h⟩ | ⟨hr, hnone, h⟩
  · simp [h, hr]
  · simp [h, hr, waiting, hnone]
  · simp [h, hr, waiting, hnone]

variable {generate}

theorem Faithful.poll {t : StageTask} (ht : t.Faithful generate) (staging : Staging) :
    (t.poll generate staging).1.Faithful generate := by
  rcases t.poll_cases generate staging with ⟨-, -, h⟩ | ⟨-, hnone, pauses, -, h⟩ | ⟨-, -, h⟩
  · rwa [h]
  · rw [h]
    intro r hr
    simp [hnone] at hr
  · rw [h]
    intro r hr
    exact (Option.some.inj hr).symm

end StageTask

/-! ## 2. Runs -/

/-- The tasks of a run, in declaration order, and what they staged. -/
structure Board where
  tasks : List StageTask
  staging : Staging := {}

namespace Board

/-- The mappers of a run, in declaration order. -/
def mappers (b : Board) : List Mapper := b.tasks.map StageTask.mapper

/-- The mappers whose tasks have not ended. -/
def waiting (b : Board) : List Mapper := b.tasks.flatMap StageTask.waiting

/-- Goes over the endings of tasks in declaration order, up to the first
failure. -/
def report : List StageTask → Except GenerationError Unit
  | [] => .ok ()
  | t :: rest =>
    match t.ending with
    | some (.error e) => .error ⟨t.mapper.name, e⟩
    | _ => report rest

/-- What a run comes to once all its tasks have ended. -/
def outcome (b : Board) : Except GenerationError (List SourceFile) :=
  (report b.tasks).map fun _ => b.staging.files

end Board

/-- One of the tasks is polled; the mapper is listed if its task ends by
that. -/
inductive Poll (generate : Generator) : Board → List Mapper → Board → Prop where
  | task (before : List StageTask) (t : StageTask) (after : List StageTask) (staging : Staging) :
    Poll generate ⟨before ++ t :: after, staging⟩ t.ready
      ⟨before ++ (t.poll generate staging).1 :: after, (t.poll generate staging).2⟩

/-- Tasks are polled one after the other; the mappers whose tasks end
are listed in that order. -/
inductive Run (generate : Generator) : Board → List Mapper → Board → Prop where
  | stay (b : Board) : Run generate b [] b
  | poll {a b c : Board} {order ready : List Mapper} (h : Run generate a order b)
    (hstep : Poll generate b ready c) : Run generate a (order ++ ready) c

variable {generate : Generator}

namespace Poll

variable {b c : Board} {ready : List Mapper} (h : Poll generate b ready c)

include h

theorem mappers_eq : c.mappers = b.mappers := by
  cases h with
  | task before t after staging => simp [Board.mappers, StageTask.mapper_poll]

/-- A step adds the files of the mapper whose task ends, with nothing
between them. -/
theorem files_eq : c.staging.files = b.staging.files ++ ready.flatMap (filesOf generate) := by
  cases h with
  | task before t after staging => exact t.files_poll generate staging

theorem waiting_perm : b.waiting.Perm (ready ++ c.waiting) := by
  cases h with
  | task before t after staging =>
    simp only [Board.waiting, List.flatMap_append, List.flatMap_cons]
    rw [t.waiting_poll generate staging, List.append_assoc]
    exact (List.perm_append_comm_assoc _ _ _)

theorem faithful (hb : ∀ t ∈ b.tasks, t.Faithful generate) :
    ∀ t ∈ c.tasks, t.Faithful generate := by
  cases h with
  | task before t after staging =>
    simp only [List.mem_append, List.mem_cons] at hb ⊢
    rintro u (hu | rfl | hu)
    · exact hb u (.inl hu)
    · exact (hb t (.inr (.inl rfl))).poll staging
    · exact hb u (.inr (.inr hu))

end Poll

namespace Run

theorem trans {a b c : Board} {order more : List Mapper} (h : Run generate a order b)
    (h' : Run generate b more c) : Run generate a (order ++ more) c := by
  induction h' with
  | stay => rwa [List.append_nil]
  | poll _ hstep ih =>
    rw [← List.append_assoc]
    exact ih.poll hstep

/-- A single step is a run. -/
theorem single {b c : Board} {ready : List Mapper} (h : Poll generate b ready c) :
    Run generate b ready c := (Run.stay b).poll h

variable {a b : Board} {order : List Mapper} (h : Run generate a order b)

include h

theorem mappers_eq : b.mappers = a.mappers := by
  induction h with
  | stay => rfl
  | poll _ hstep ih => rw [hstep.mappers_eq, ih]

/-- A run adds the files of the mappers whose tasks end, in the order in
which they do. -/
theorem files_eq : b.staging.files = a.staging.files ++ order.flatMap (filesOf generate) := by
  induction h with
  | stay => simp
  | poll _ hstep ih => rw [hstep.files_eq, ih, List.flatMap_append, List.append_assoc]

/-- Every task ends once at most, and the others are still waiting. -/
theorem waiting_perm : a.waiting.Perm (order ++ b.waiting) := by
  induction h with
  | stay => exact List.Perm.refl _
  | poll _ hstep ih =>
    rw [List.append_assoc]
    exact ih.trans (hstep.waiting_perm.append_left _)

theorem faithful (ha : ∀ t ∈ a.tasks, t.Faithful generate) :
    ∀ t ∈ b.tasks, t.Faithful generate := by
  induction h with
  | stay => exact ha
  | poll _ hstep ih => exact hstep.faithful ih

/-- What is staged stays in its place. -/
theorem staging_prefix : a.staging.files <+: b.staging.files :=
  ⟨_, h.files_eq.symm⟩

end Run

variable (generate) in
/-- A task can be polled until it has ended. -/
theorem exists_run_task (before : List StageTask) (t : StageTask) (after : List StageTask)
    (staging : Staging) :
    ∃ order ended staged, Run generate ⟨before ++ t :: after, staging⟩ order
      ⟨before ++ ended :: after, staged⟩ ∧ ended.waiting = [] := by
  obtain ⟨m, pauses, ending⟩ := t
  cases ending with
  | some r => exact ⟨[], _, staging, .stay _, rfl⟩
  | none =>
    induction pauses with
    | zero =>
      have hwaiting : [m] = [m] ++ _ := StageTask.waiting_poll generate ⟨m, 0, none⟩ staging
      exact ⟨_, _, _, Run.single (.task before ⟨m, 0, none⟩ after staging),
        List.self_eq_append_right.mp hwaiting⟩
    | succ pauses ih =>
      obtain ⟨order, ended, staged, hrun, hended⟩ := ih
      exact ⟨_, ended, staged,
        (Run.single (.task before ⟨m, pauses + 1, none⟩ after staging)).trans hrun, hended⟩

variable (generate) in
/-- Every run can go on until all tasks have ended. -/
theorem exists_run_to_end : ∀ (tasks before : List StageTask) (staging : Staging),
    ∃ order c, Run generate ⟨before ++ tasks, staging⟩ order c ∧
      c.waiting = before.flatMap StageTask.waiting
  | [], before, staging => ⟨[], _, .stay _, by simp [Board.waiting]⟩
  | t :: rest, before, staging => by
    obtain ⟨order, ended, staged, hrun, hended⟩ := exists_run_task generate before t rest staging
    obtain ⟨more, c, hmore, hwaiting⟩ := exists_run_to_end rest (before ++ [ended]) staged
    rw [List.append_assoc] at hmore
    exact ⟨order ++ more, c, hrun.trans hmore, by simp [hwaiting, hended]⟩

/-! ## 3. Outcomes -/

/-- Tasks that have all ended are reported as their mappers come to an
end by themselves. -/
theorem report_spec {tasks : List StageTask} (hfaithful : ∀ t ∈ tasks, t.Faithful generate)
    (hended : tasks.flatMap StageTask.waiting = []) :
    (Board.report tasks = .ok () ↔ ∀ m ∈ tasks.map StageTask.mapper, ∃ own, generate m = .ok own) ∧
    ∀ e, Board.report tasks = .error e ↔
      ∃ m, FirstError generate (tasks.map StageTask.mapper) m e.error ∧ e.mapper = m.name := by
  induction tasks with
  | nil =>
    refine ⟨⟨fun _ _ hm => absurd hm List.not_mem_nil, fun _ => rfl⟩, fun e => ⟨?_, ?_⟩⟩
    · intro h
      cases h
    · rintro ⟨m, h, -⟩
      cases h
  | cons t rest ih =>
    obtain ⟨ht, hrest⟩ := List.forall_mem_cons.mp hfaithful
    rw [List.flatMap_cons, List.append_eq_nil_iff] at hended
    obtain ⟨hok, herror⟩ := ih hrest hended.2
    cases hending : t.ending with
    | none => simp [StageTask.waiting, hending] at hended
    | some r =>
      have hr := ht r hending
      rw [List.map_cons, List.forall_mem_cons, Board.report, hending]
      cases hgenerate : generate t.mapper with
      | error e' =>
        obtain rfl : r = .error e' := by rw [hr, hgenerate]; rfl
        refine ⟨by simp, fun e => ⟨?_, ?_⟩⟩
        · intro h
          obtain rfl := Except.error.inj h
          exact ⟨t.mapper, .here hgenerate, rfl⟩
        · rintro ⟨m, h, hname⟩
          rcases FirstFault.cons_iff.mp h with ⟨rfl, he⟩ | ⟨⟨own, hown⟩, -⟩
          · rw [← hname, Except.error.inj (hgenerate.symm.trans he)]
          · exact absurd (hgenerate.symm.trans hown) (by simp)
      | ok files =>
        obtain rfl : r = .ok () := by rw [hr, hgenerate]; rfl
        refine ⟨⟨fun h => ⟨⟨files, rfl⟩, hok.mp h⟩, fun h => hok.mpr h.2⟩, fun e => ?_⟩
        rw [show _ ↔ _ from herror e]
        constructor
        · rintro ⟨m, h, hname⟩
          exact ⟨m, .later ⟨files, hgenerate⟩ h, hname⟩
        · rintro ⟨m, h, hname⟩
          rcases FirstFault.cons_iff.mp h with ⟨rfl, he⟩ | ⟨-, h⟩
          · exact absurd (hgenerate.symm.trans he) (by simp)
          · exact ⟨m, h, hname⟩

/-- What a run comes to whose tasks have all ended: the files that are
staged if no mapper fails, and else the first failure in declaration
order. -/
theorem outcome_of_ended {b : Board} (hfaithful : ∀ t ∈ b.tasks, t.Faithful generate)
    (hended : b.waiting = []) :
    (∀ files, b.outcome = .ok files ↔
      (∀ m ∈ b.mappers, ∃ own, generate m = .ok own) ∧ files = b.staging.files) ∧
    ∀ e, b.outcome = .error e ↔
      ∃ m, FirstError generate b.mappers m e.error ∧ e.mapper = m.name := by
  obtain ⟨hok, herror⟩ := report_spec hfaithful hended
  refine ⟨fun files => ?_, fun e => ?_⟩
  · rw [Board.outcome, map_eq_ok_iff, Board.mappers, ← hok]
    constructor
    · rintro ⟨⟨⟩, h, rfl⟩
      exact ⟨h, rfl⟩
    · rintro ⟨h, rfl⟩
      exact ⟨(), h, rfl⟩
  · rw [Board.mappers, ← herror, Board.outcome]
    cases Board.report b.tasks <;> simp [Except.map]

/-! ## 4. Tasks that never pause -/

/-- Polls every task once, in declaration order. -/
def sweep (generate : Generator) : List StageTask → Staging → Board
  | [], staging => ⟨[], staging⟩
  | t :: rest, staging =>
    let b := sweep generate rest (t.poll generate staging).2
    ⟨(t.poll generate staging).1 :: b.tasks, b.staging⟩

variable (generate) in
/-- A sweep is a run in which the tasks that are ready end in
declaration order. -/
theorem run_sweep : ∀ (tasks before : List StageTask) (staging : Staging),
    Run generate ⟨before ++ tasks, staging⟩ (tasks.flatMap StageTask.ready)
      ⟨before ++ (sweep generate tasks staging).tasks, (sweep generate tasks staging).staging⟩
  | [], before, staging => .stay _
  | t :: rest, before, staging => by
    have ih := run_sweep rest (before ++ [(t.poll generate staging).1])
      (t.poll generate staging).2
    rw [List.append_assoc, List.append_assoc] at ih
    exact (Run.single (.task before t rest staging)).trans ih

/-- The tasks of mappers that never pause. -/
def unpaused (mappers : List Mapper) : List StageTask := mappers.map fun m => ⟨m, 0, none⟩

theorem ready_unpaused (mappers : List Mapper) :
    (unpaused mappers).flatMap StageTask.ready = mappers := by
  simp [unpaused, List.flatMap_map, StageTask.ready]

theorem mappers_unpaused (mappers : List Mapper) :
    (unpaused mappers).map StageTask.mapper = mappers := by
  simp [unpaused, Function.comp_def]

variable (generate) in
/-- Tasks that never pause all end in one sweep, in declaration order. -/
theorem run_unpaused (mappers : List Mapper) :
    Run generate ⟨unpaused mappers, {}⟩ mappers (sweep generate (unpaused mappers) {}) := by
  have h := run_sweep generate (unpaused mappers) [] {}
  rwa [ready_unpaused] at h

namespace Settings

/-- A sweep over tasks that never pause comes to what the mappers come
to one after the other. -/
theorem outcome_sweep (style : Style) (base : Location) :
    ∀ (mappers : List Mapper) (staging : Staging),
      (sweep (·.generate style base) (unpaused mappers) staging).outcome =
        (stageMappers style base staging mappers).map Staging.files
  | [], staging => rfl
  | m :: rest, staging => by
    rw [stageMappers]
    cases hm : m.generate style base with
    | error e =>
      simp [unpaused, sweep, StageTask.poll, hm, Board.outcome, Board.report, Except.map]
    | ok files =>
      rw [← outcome_sweep style base rest (staging.stage files)]
      simp [unpaused, sweep, StageTask.poll, hm, Board.outcome, Board.report]

/-! ## 5. All runs of a configuration -/

/-- What holds at every moment of a run over mappers, when the tasks of
`order` have ended. -/
structure KeepsPairs (generate : Generator) (mappers order : List Mapper) (b : Board) : Prop where
  /-- Every task ends once at most, and no mapper is lost. -/
  once : (order ++ b.waiting).Perm mappers
  /-- The files of one mapper are together, in the order of the ends. -/
  staged : b.staging.files = order.flatMap (filesOf generate)
  /-- What is staged stays where it is. -/
  grows : ∀ more c, Run generate b more c → b.staging.files <+: c.staging.files
  /-- The run can go on until all tasks have ended. -/
  ends : ∃ more c, Run generate b more c ∧ c.waiting = []
  /-- In the end all files are returned if no mapper fails. -/
  files : b.waiting = [] → ∀ files, b.outcome = .ok files ↔
    (∀ m ∈ mappers, ∃ own, generate m = .ok own) ∧ files = b.staging.files
  /-- Otherwise it is the first failure in declaration order. -/
  failure : b.waiting = [] → ∀ e, b.outcome = .error e ↔
    ∃ m, FirstError generate mappers m e.error ∧ e.mapper = m.name

/-- Whatever the order in which the tasks end, a run keeps the files of
each mapper together and loses none. -/
theorem keepsPairs_of_run {generate : Generator} {tasks : List StageTask} {order : List Mapper}
    {b : Board} (hnew : ∀ t ∈ tasks, t.ending = none) (h : Run generate ⟨tasks, {}⟩ order b) :
    KeepsPairs generate (tasks.map StageTask.mapper) order b := by
  have hwaiting : Board.waiting ⟨tasks, {}⟩ = tasks.map StageTask.mapper := by
    clear h
    induction tasks with
    | nil => rfl
    | cons t rest ih =>
      obtain ⟨ht, hrest⟩ := List.forall_mem_cons.mp hnew
      have := ih hrest
      simp_all [Board.waiting, StageTask.waiting]
  have hfaithful := h.faithful fun t ht r hr => by
    rw [hnew t ht] at hr
    cases hr
  have hmappers := h.mappers_eq
  constructor
  · rw [← hwaiting]
    exact h.waiting_perm.symm
  · rw [h.files_eq]
    rfl
  · intro more c hrun
    exact hrun.staging_prefix
  · exact exists_run_to_end generate b.tasks [] b.staging
  · intro hended
    have := (outcome_of_ended hfaithful hended).1
    rwa [hmappers] at this
  · intro hended
    have := (outcome_of_ended hfaithful hended).2
    rwa [hmappers] at this

/-- The files of a mapper are a pair: those of its item types and its
own. -/
theorem exists_pair_of_generate {m : Mapper} {style : Style} {base : Location}
    {files : List SourceFile} (h : m.generate style base = .ok files) :
    ∃ itemFile mapperFile, files = [itemFile, mapperFile] ∧
      m.item.typeFile style = .ok itemFile ∧ mapperFile.path = m.outPath := by
  obtain ⟨tableSchema, -, h⟩ := bind_eq_ok_iff.mp h
  obtain ⟨itemFile, hitem, h⟩ := bind_eq_ok_iff.mp h
  obtain ⟨keyType, -, h⟩ := bind_eq_ok_iff.mp h
  obtain rfl := Except.ok.inj h
  exact ⟨itemFile, _, rfl, mapError_eq_ok_iff.mp hitem, rfl⟩

/-- Staging neither loses, doubles nor splits the files of a mapper.
Mappers that cannot be constructed end a run before any task begins.
Otherwise every run, in whatever order its tasks pause and end and
however the files are generated, keeps the files of each mapper
together. By the built-in generation, which never pauses, the files of
a mapper are a pair, the tasks end in declaration order, and what is
returned is what the mappers generate, one after the other. -/
theorem runs_keep_pairs (s : Settings) (style : Style) (base : Location) :
    (∀ e, mappersOf s.mappers.entries = .error e → s.generateFiles style base = .error e) ∧
    ∀ mappers, mappersOf s.mappers.entries = .ok mappers →
      (∀ (generate : Generator) (tasks : List StageTask) (order : List Mapper) (b : Board),
        tasks.map StageTask.mapper = mappers → (∀ t ∈ tasks, t.ending = none) →
          Run generate ⟨tasks, {}⟩ order b → KeepsPairs generate mappers order b) ∧
      (∀ (m : Mapper) (files : List SourceFile), m.generate style base = .ok files →
        ∃ itemFile mapperFile, files = [itemFile, mapperFile] ∧
          m.item.typeFile style = .ok itemFile ∧ mapperFile.path = m.outPath) ∧
      Run (·.generate style base) ⟨unpaused mappers, {}⟩ mappers
        (sweep (·.generate style base) (unpaused mappers) {}) ∧
      s.generateFiles style base =
        (sweep (·.generate style base) (unpaused mappers) {}).outcome ∧
      ∀ files, s.generateFiles style base = .ok files ↔
        (∀ m ∈ mappers, ∃ own, m.generate style base = .ok own) ∧
          files = mappers.flatMap (filesOf (·.generate style base)) := by
  refine ⟨fun e he => bind_eq_error_iff.mpr (.inl he), fun mappers hmappers => ?_⟩
  have houtcome : s.generateFiles style base =
      (sweep (·.generate style base) (unpaused mappers) {}).outcome := by
    rw [outcome_sweep, generateFiles, hmappers]
    show (stageMappers style base {} mappers >>= fun staging => .ok staging.files) = _
    cases stageMappers style base {} mappers <;> rfl
  have hsweep := run_unpaused (·.generate style base) mappers
  have hkeeps := keepsPairs_of_run (by simp [unpaused]) hsweep
  rw [mappers_unpaused] at hkeeps
  have hended : (sweep (·.generate style base) (unpaused mappers) {}).waiting = [] := by
    simpa using hkeeps.once.length_eq
  refine ⟨?_, fun m files => exists_pair_of_generate, hsweep, houtcome, fun files => ?_⟩
  · rintro generate tasks order b rfl hnew hrun
    exact keepsPairs_of_run hnew hrun
  · rw [houtcome, hkeeps.files hended, hkeeps.staged]

/-- Two mappers of records without properties. -/
def twoMappers : Settings where
  mappers := .ofFields [("First", bareMapper "id" []), ("Second", bareMapper "id" [])]

/-- Two empty files named after a mapper. -/
def emptyPair (m : Mapper) : List SourceFile :=
  [⟨m.name ++ "Item.ts", "", true⟩, ⟨m.name ++ ".ts", "", true⟩]

/-- Where the task of the first of the two pauses once, that of the second
ends before it, and its files come first. -/
theorem runs_keep_pairs_reversed :
    ∃ first second b, mappersOf twoMappers.mappers.entries = .ok [first, second] ∧
      Run (.ok <| emptyPair ·) ⟨[⟨first, 1, none⟩, ⟨second, 0, none⟩], {}⟩ [second, first] b ∧
      b.staging.files.map SourceFile.path =
        ["SecondItem.ts", "Second.ts", "FirstItem.ts", "First.ts"] ∧
      b.outcome = .ok b.staging.files := by
  obtain ⟨first, hfirst⟩ : ∃ m, construct ("First", bareMapper "id" []) = .ok m := ⟨_, rfl⟩
  obtain ⟨second, hsecond⟩ : ∃ m, construct ("Second", bareMapper "id" []) = .ok m := ⟨_, rfl⟩
  have hmappers : mappersOf twoMappers.mappers.entries = .ok [first, second] := by
    cases hfirst
    cases hsecond
    rfl
  have hpause : Run (.ok <| emptyPair ·) ⟨[⟨first, 1, none⟩, ⟨second, 0, none⟩], {}⟩ []
      ⟨[⟨first, 0, none⟩, ⟨second, 0, none⟩], {}⟩ :=
    Run.single (.task [] ⟨first, 1, none⟩ [⟨second, 0, none⟩] {})
  have hlater : Run (.ok <| emptyPair ·) ⟨[⟨first, 0, none⟩, ⟨second, 0, none⟩], {}⟩ [second]
      ⟨[⟨first, 0, none⟩, ⟨second, 0, some (.ok ())⟩], ⟨emptyPair second⟩⟩ :=
    Run.single (.task [⟨first, 0, none⟩] ⟨second, 0, none⟩ [] {})
  have hfinal : Run (.ok <| emptyPair ·)
      ⟨[⟨first, 0, none⟩, ⟨second, 0, some (.ok ())⟩], ⟨emptyPair second⟩⟩ [first]
      ⟨[⟨first, 0, some (.ok ())⟩, ⟨second, 0, some (.ok ())⟩],
        ⟨emptyPair second ++ emptyPair first⟩⟩ :=
    Run.single (.task [] ⟨first, 0, none⟩ [⟨second, 0, some (.ok ())⟩] ⟨emptyPair second⟩)
  have hrun := (hpause.trans hlater).trans hfinal
  have hkeeps := ((runs_keep_pairs twoMappers {} (.ofString "/")).2 _ hmappers).1 _ _ _ _ rfl
    (by simp) hrun
  refine ⟨first, second, _, hmappers, hrun, ?_, ?_⟩
  · rw [hkeeps.staged]
    cases hfirst
    cases hsecond
    rfl
  · exact (hkeeps.files rfl _).mpr ⟨fun m _ => ⟨emptyPair m, rfl⟩, rfl⟩

end Settings

end TableMapper
