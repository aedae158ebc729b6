import SourceAudit.Proofs.FirstOccurrences
import SourceAudit.Proofs.MonitoredOutcomes

/-!
# Observations are reported once

A sampled process shows its connections, open files, memory and children again and again, or refuses
to.
-/

open List

namespace SourceAudit.Monitor

open Outside

/-! ## What samples show -/

def connectionActivity? (conn : Connection) : Option NetworkActivity :=
  match conn.far, conn.near with
  | some addr, _ => some (activity "connect" addr)
  | none, some addr => some (activity "bind" addr)
  | none, none => none
where
  activity (kind : String) (addr : Address) : NetworkActivity :=
    { kind, target := addr.endpoint, timestamp := Moment.current.milliseconds, line := ""
      address := .text addr.pair.plain }

def openedActivity? (file : OpenFile) : Option FileActivity :=
  if file.path.isEmpty then none
  else some { operation := "open", path := file.path, mode := "", sensitive := isSensitive file.path
              lines := [] }

def programOf (child : Int × Snapshot) : String :=
  match child.2.program with
  | .ok prog => prog
  | .error _ => ""

def spawnEvent (child : Int × Snapshot) : String :=
  s!"process_spawn: pid={child.1} exe={programOf child}"

def destination (activity : NetworkActivity) : String × String :=
  (activity.kind, activity.target)

def shown {α : Type} (obs : Observed (List α)) : List α :=
  obs.toOption.getD []

def connectionsShown (samples : List Sample) : List NetworkActivity :=
  samples.flatMap fun sample => (shown sample.connections).filterMap connectionActivity?

def filesShown (samples : List Sample) : List FileActivity :=
  samples.flatMap fun sample => (shown sample.files).filterMap openedActivity?

def childrenShown (samples : List Sample) : List (Int × Snapshot) :=
  samples.flatMap fun sample => shown sample.children

namespace ProcessObservations

variable (seen : ProcessObservations)

theorem foldl_noteConnection (connections : List Connection) :
    connections.foldl noteConnection seen = { seen with
      network := seen.network ++ firstOfEach destination (seen.network.map destination)
        (connections.filterMap connectionActivity?) } := by
  have folded := foldl_firstOfEach destination (seen.network.map destination) connectionActivity?
    noteConnection (fun taken => { seen with network := seen.network ++ taken }) ?_ connections []
  · simpa using folded
  · rintro taken ⟨near, far, status⟩
    cases far <;> cases near <;> simp [noteConnection, noteConnection.add, connectionActivity?,
      connectionActivity?.activity, destination]

theorem foldl_noteFile (files : List OpenFile) :
    files.foldl noteFile seen = { seen with
      files := seen.files ++ firstOfEach FileActivity.path (seen.files.map FileActivity.path)
        (files.filterMap openedActivity?) } := by
  have folded := foldl_firstOfEach FileActivity.path (seen.files.map FileActivity.path)
    openedActivity? noteFile (fun taken => { seen with files := seen.files ++ taken }) ?_ files []
  · simpa using folded
  · intro taken file
    by_cases unnamed : file.path.isEmpty = true <;> simp [noteFile, openedActivity?, unnamed]

theorem foldl_noteChild (children : List (Int × Snapshot)) :
    children.foldl noteChild seen = { seen with
      spawned := seen.spawned ++ (firstOfEach Prod.fst seen.spawned children).map Prod.fst
      events := seen.events ++ (firstOfEach Prod.fst seen.spawned children).map spawnEvent } := by
  have folded := foldl_firstOfEach Prod.fst seen.spawned some noteChild (fun taken => { seen with
      spawned := seen.spawned ++ taken.map Prod.fst
      events := seen.events ++ taken.map spawnEvent }) ?_ children []
  · simpa using folded
  · rintro taken ⟨n, snapshot⟩
    simp only [noteChild, contains_iff_mem, map_append, append_assoc]
    by_cases hk : n ∈ seen.spawned ++ taken.map Prod.fst
    · rw [if_pos hk, if_pos hk]
    · rw [if_neg hk, if_neg hk]
      rfl

/-! ## Samples -/

theorem exists_noteAll_eq {α : Type} (note : ProcessObservations → α → ProcessObservations)
    (obs : Observed (List α)) :
    ∃ error, seen.noteAll note obs = { (shown obs).foldl note seen with error } := by
  cases obs with
  | ok xs => exact ⟨_, rfl⟩
  | error refusal =>
    cases refusal with
    | denied msg =>
      by_cases h1 : seen.error.isEmpty = true
      · exact ⟨_, if_pos h1⟩
      · exact ⟨_, if_neg h1⟩
    | failed msg => exact ⟨_, rfl⟩

theorem exists_noteMemory_eq (memory : Observed (Int × Int)) :
    ∃ error, seen.noteMemory memory = { seen with
      maxResident := (memory.toOption.toList.map Prod.fst).foldl max seen.maxResident
      maxVirtual := (memory.toOption.toList.map Prod.snd).foldl max seen.maxVirtual
      error } := by
  cases memory with
  | ok sizes => exact ⟨_, rfl⟩
  | error refusal =>
    obtain ⟨error, noted⟩ := exists_noteAll_eq seen (fun seen (_ : Unit) => seen) (.error refusal)
    exact ⟨error, noted⟩

structure Reports (seen : ProcessObservations) (samples : List Sample) : Prop where
  network : seen.network = firstOfEach destination [] (connectionsShown samples)
  files : seen.files = firstOfEach FileActivity.path [] (filesShown samples)
  spawned : seen.spawned = (firstOfEach Prod.fst [] (childrenShown samples)).map Prod.fst
  events : seen.events = (firstOfEach Prod.fst [] (childrenShown samples)).map spawnEvent
  resident : seen.maxResident = ((Observations.memoryShown samples).map Prod.fst).foldl max 0
  virtual : seen.maxVirtual = ((Observations.memoryShown samples).map Prod.snd).foldl max 0

variable {seen}

theorem Reports.noteSample {past : List Sample} (reports : Reports seen past) (sample : Sample) :
    Reports (seen.noteSample sample) (past ++ [sample]) := by
  obtain ⟨_, connected⟩ := exists_noteAll_eq seen noteConnection sample.connections
  rw [ProcessObservations.noteSample, connected, foldl_noteConnection]
  obtain ⟨_, opened⟩ := exists_noteAll_eq _ noteFile sample.files
  rw [opened, foldl_noteFile]
  obtain ⟨_, remembered⟩ := exists_noteMemory_eq _ sample.resident
  rw [remembered]
  obtain ⟨_, spawned⟩ := exists_noteAll_eq _ noteChild sample.children
  rw [spawned, foldl_noteChild]
  have memory : Observations.memoryShown (past ++ [sample]) =
      Observations.memoryShown past ++ sample.resident.toOption.toList := by
    rw [Observations.memoryShown, filterMap_append]
    cases shown : sample.resident.toOption <;> simp [shown, Observations.memoryShown]
  constructor
  · simp [connectionsShown, firstOfEach_append, reports.network]
  · simp [filesShown, firstOfEach_append, reports.files]
  · simp [childrenShown, firstOfEach_append, reports.spawned]
  · simp [childrenShown, firstOfEach_append, reports.spawned, reports.events]
  · simp [memory, reports.resident]
  · simp [memory, reports.virtual]

end ProcessObservations

/-! ## Results -/

end SourceAudit.Monitor
