import LedLamp.Json
import Mathlib.Data.List.Nodup
/-!
# The state directory of a factory reset (`app_main.c`)

A reset removes the files of `/state` one by one: each round opens the directory, reads
it up to the first file and removes that. A reset that has the rounds for it and reads
without errors leaves no file behind. But the end of the directory and a failed read look
the same to it, and the round that would find the directory empty is missing when the
files fill its budget (`clears_state_dir_iff`).
-/

namespace LedLamp.AppMain

def LAMP_FS_DIR_STATE : List UInt8 := ascii "/state"
def OSAL_MAX_PATH_LEN : Nat := 128
def FACTORY_RESET_STATE_FILES_MAX : Nat := 16

/-- `osal_dirent_type_t`; `other` is every type that is not `OSAL_DIRENT_TYPE_FILE`. -/
inductive OsalDirentType
  | file
  | other
  deriving DecidableEq, Repr

/-- `osal_dirent_t`: the name is a C string, in an array no longer than a path. -/
structure OsalDirent where
  name : List UInt8
  type : OsalDirentType
  plain : (0 : UInt8) ∉ name
  fits : name.length ≤ OSAL_MAX_PATH_LEN
  deriving DecidableEq

def OsalDirent.isFile (entry : OsalDirent) : Bool := entry.type = .file

/-- The path of a name in the directory. -/
def statePath (name : List UInt8) : List UInt8 := LAMP_FS_DIR_STATE ++ ascii "/" ++ name

/-- What stands directly in `/state`; no two entries have one name. -/
structure StateDir where
  entries : List OsalDirent
  names : (entries.map OsalDirent.name).Nodup

def StateDir.files (d : StateDir) : List OsalDirent := d.entries.filter OsalDirent.isFile

def StateDir.remove (d : StateDir) (path : List UInt8) : StateDir where
  entries := d.entries.filter fun entry => statePath entry.name ≠ path
  names := d.names.sublist (List.filter_sublist.map _)

/-- The directory and the calls into it: the order an open at some call lists the entries
in, which calls succeed, the number of calls made, and the paths removed so far. A read
also gives no entry when it fails. -/
structure Storage where
  dir : StateDir
  listing : Nat → List OsalDirent → List OsalDirent
  listed : ∀ n entries, (listing n entries).Perm entries
  outcome : Nat → Bool
  calls : Nat
  removed : List (List UInt8)

namespace Storage

/-- After `k` more calls. -/
def after (s : Storage) (k : Nat) : Storage := { s with calls := s.calls + k }

/-- One call: whether it succeeds. -/
def call (s : Storage) : Bool × Storage := (s.outcome s.calls, s.after 1)

def osalRemove (path : List UInt8) (s : Storage) : Bool × Storage :=
  let (ok, s) := s.call
  (ok, { s with dir := if ok then s.dir.remove path else s.dir, removed := s.removed ++ [path] })

@[simp] theorem after_dir (s : Storage) (k : Nat) : (s.after k).dir = s.dir := rfl
@[simp] theorem after_outcome (s : Storage) (k : Nat) : (s.after k).outcome = s.outcome := rfl
@[simp] theorem after_calls (s : Storage) (k : Nat) : (s.after k).calls = s.calls + k := rfl
@[simp] theorem after_removed (s : Storage) (k : Nat) : (s.after k).removed = s.removed := rfl
@[simp] theorem after_after (s : Storage) (k l : Nat) : (s.after k).after l = s.after (k + l) := by
  simp [after, Nat.add_assoc]

end Storage

/-! ## The loop -/

/-- The reads of one round, over the entries still to come: the first file, or `none`
when a read gives nothing. -/
def scanState : List OsalDirent → Storage → Option OsalDirent × Storage
  | [], s => (none, s.call.2)
  | entry :: rest, s =>
    let (ok, s) := s.call
    if !ok then (none, s) else if entry.isFile then (some entry, s) else scanState rest s

/-- How a round ends. -/
inductive Round
  | returns (ok : Bool)
  | continues
  deriving DecidableEq, Repr

/-- The body of the loop of `factory_reset_clear_state_dir`. -/
def clearRound (s : Storage) : Round × Storage :=
  let stream := s.listing s.calls s.dir.entries
  let (opened, s) := s.call
  if !opened then (.returns false, s)
  else
    let (found, s) := scanState stream s
    let (_, s) := s.call
    match found with
    | none => (.returns true, s)
    | some entry =>
      let path := statePath (cstr entry.name)
      if path.length ≥ LAMP_FS_DIR_STATE.length + 1 + OSAL_MAX_PATH_LEN + 1 then (.returns false, s)
      else
        let (removed, s) := s.osalRemove path
        (if removed then .continues else .returns false, s)

/-- The loop, with `n` rounds left. -/
def clearRounds : (n : Nat) → Storage → Bool × Storage
  | 0, s => (false, s)
  | n + 1, s =>
    match clearRound s with
    | (.returns ok, s) => (ok, s)
    | (.continues, s) => clearRounds n s

def factoryResetClearStateDir (s : Storage) : Bool × Storage := clearRounds FACTORY_RESET_STATE_FILES_MAX s

/-! ## What goes wrong -/

/-- A read fails, from call `n` on, before the first file of these entries. -/
def ReadFails (outcome : Nat → Bool) : (n : Nat) → List OsalDirent → Prop
  | _, [] => False
  | n, entry :: rest => outcome n = false ∨ (entry.isFile = false ∧ ReadFails outcome (n + 1) rest)

/-- The directory opens, holds a file, and a read fails before the first one. -/
def Misread (s : Storage) : Prop :=
  s.outcome s.calls = true ∧ s.dir.files ≠ [] ∧ ReadFails s.outcome (s.calls + 1) (s.listing s.calls s.dir.entries)

/-- Every call to come succeeds. -/
def AllSucceed (s : Storage) : Prop := ∀ n, s.calls ≤ n → s.outcome n = true

/-- `j` rounds that each removed a file lead here. -/
inductive Rounds : Nat → Storage → Storage → Prop
  | start (s : Storage) : Rounds 0 s s
  | round {j : Nat} {s s' t : Storage} (h : clearRound s = (.continues, s')) (hr : Rounds j s' t) : Rounds (j + 1) s t

/-- What a clearing promises: success leaves no file; where all calls succeed it succeeds
for as many files as its bound; what is no file stays; and only the paths of files are
removed. -/
structure Clears (s : Storage) : Prop where
  cleared : (factoryResetClearStateDir s).1 = true → (factoryResetClearStateDir s).2.dir.files = []
  complete : AllSucceed s → s.dir.files.length ≤ FACTORY_RESET_STATE_FILES_MAX →
    (factoryResetClearStateDir s).1 = true ∧ (factoryResetClearStateDir s).2.dir.files = []
  spared : ∀ entry ∈ s.dir.entries, entry.isFile = false → entry ∈ (factoryResetClearStateDir s).2.dir.entries
  removed : ∀ path ∈ (factoryResetClearStateDir s).2.removed,
    path ∈ s.removed ∨ ∃ entry ∈ s.dir.files, path = statePath entry.name

/-! ## One removal -/

theorem statePath_inj {name name' : List UInt8} : statePath name = statePath name' ↔ name = name' := by simp [statePath]

theorem isFile_iff {d : StateDir} {entry : OsalDirent} : entry ∈ d.files ↔ entry ∈ d.entries ∧ entry.isFile = true :=
  List.mem_filter

/-- A removal takes the one entry of its name. -/
theorem remove_entries {d : StateDir} {entry : OsalDirent} (he : entry ∈ d.entries) :
    (d.remove (statePath entry.name)).entries = d.entries.erase entry := by
  rw [(List.Nodup.of_map _ d.names).erase_eq_filter, StateDir.remove]
  refine List.filter_congr fun other ho => ?_
  rw [Bool.eq_iff_iff, decide_eq_true_eq, bne_iff_ne, ne_eq, ne_eq, not_iff_not, statePath_inj]
  exact ⟨List.inj_on_of_nodup_map d.names ho he, congrArg _⟩

theorem remove_files {d : StateDir} {entry : OsalDirent} (he : entry ∈ d.files) :
    (d.remove (statePath entry.name)).files = d.files.erase entry := by
  rw [StateDir.files, remove_entries (isFile_iff.1 he).1, StateDir.files, List.erase_filter]

/-! ## One round -/

/-- What the reads leave of the storage, and what they give. -/
theorem scanState_spec (stream : List OsalDirent) (s : Storage) :
    (∃ k, (scanState stream s).2 = s.after k) ∧
      ((scanState stream s).1 = none ∧ (ReadFails s.outcome s.calls stream ∨ ∀ entry ∈ stream, entry.isFile = false) ∨
        ¬ ReadFails s.outcome s.calls stream ∧ ∃ entry ∈ stream, entry.isFile = true ∧ (scanState stream s).1 = some entry) := by
  induction stream generalizing s with
  | nil => exact ⟨⟨1, rfl⟩, .inl ⟨rfl, .inr (by simp)⟩⟩
  | cons entry rest ih =>
    by_cases ho : s.outcome s.calls = true
    swap
    · have hscan : scanState (entry :: rest) s = (none, s.after 1) := by simp [scanState, Storage.call, ho]
      rw [hscan]
      exact ⟨⟨1, rfl⟩, .inl ⟨rfl, .inl (.inl (by simpa using ho))⟩⟩
    by_cases hf : entry.isFile = true
    · have hscan : scanState (entry :: rest) s = (some entry, s.after 1) := by simp [scanState, Storage.call, ho, hf]
      rw [hscan]
      exact ⟨⟨1, rfl⟩, .inr ⟨by simp [ReadFails, ho, hf], entry, by simp, hf, rfl⟩⟩
    · have hscan : scanState (entry :: rest) s = scanState rest (s.after 1) := by simp [scanState, Storage.call, ho, hf]
      obtain ⟨⟨k, hk⟩, hread⟩ := ih (s.after 1)
      have hfails : ReadFails s.outcome s.calls (entry :: rest) ↔ ReadFails s.outcome (s.calls + 1) rest := by
        simp [ReadFails, ho, hf]
      rw [hscan, hfails]
      refine ⟨⟨1 + k, by rw [hk, Storage.after_after]⟩, ?_⟩
      rcases hread with ⟨hnone, hno | hno⟩ | ⟨hno, found, hm, hread⟩
      · exact .inl ⟨hnone, .inl hno⟩
      · exact .inl ⟨hnone, .inr (by simpa [hf] using hno)⟩
      · exact .inr ⟨hno, found, List.mem_cons_of_mem _ hm, hread⟩

/-- A file's path fits its buffer. -/
theorem statePath_fits (entry : OsalDirent) :
    ¬ (statePath (cstr entry.name)).length ≥ LAMP_FS_DIR_STATE.length + 1 + OSAL_MAX_PATH_LEN + 1 := by
  have hfits := entry.fits
  rw [cstr_of_not_mem entry.plain, statePath, List.length_append, List.length_append, show (ascii "/").length = 1 by decide]
  omega

/-- How a round ends: it fails to open or to remove; it finds no file, or reads none of
them; or it has removed one. -/
theorem clearRound_cases (s : Storage) :
    (∃ k, clearRound s = (.returns false, s.after k) ∧ ¬ AllSucceed s ∧ ¬ Misread s) ∨
      (∃ k, clearRound s = (.returns true, s.after k) ∧ (s.dir.files = [] ∨ Misread s)) ∨
      (¬ Misread s ∧ ∃ entry ∈ s.dir.files, ∃ k,
        (¬ AllSucceed s ∧ clearRound s =
            (.returns false, { s.after k with removed := s.removed ++ [statePath entry.name] })) ∨
          clearRound s = (.continues, { s.after k with
            dir := s.dir.remove (statePath entry.name), removed := s.removed ++ [statePath entry.name] })) := by
  by_cases ho : s.outcome s.calls = true
  swap
  · refine .inl ⟨1, by simp [clearRound, Storage.call, ho], fun hall => ho (hall s.calls (Nat.le_refl _)), fun hm => ho hm.1⟩
  right
  obtain ⟨⟨k, hk⟩, hread⟩ := scanState_spec (s.listing s.calls s.dir.entries) (s.after 1)
  have hlisted := fun entry => (s.listed s.calls s.dir.entries).mem_iff (a := entry)
  rcases hread with ⟨hnone, hno⟩ | ⟨hno, entry, hm, hf, hsome⟩
  · refine .inl ⟨1 + k + 1, ?_, ?_⟩
    · simp [clearRound, Storage.call, ho, hnone, hk]
    · by_cases hfiles : s.dir.files = []
      · exact .inl hfiles
      refine .inr ⟨ho, hfiles, hno.resolve_right fun hall => hfiles ?_⟩
      exact List.filter_eq_nil_iff.2 fun entry he => by simp [hall entry ((hlisted entry).2 he)]
  · have hfile : entry ∈ s.dir.files := isFile_iff.2 ⟨(hlisted entry).1 hm, hf⟩
    refine .inr ⟨fun hmis => hno hmis.2.2, entry, hfile, 1 + k + 1 + 1, ?_⟩
    have hround : clearRound s =
        (if s.outcome (s.calls + (1 + k + 1)) then .continues else .returns false, { s.after (1 + k + 1 + 1) with
          dir := if s.outcome (s.calls + (1 + k + 1)) then s.dir.remove (statePath entry.name) else s.dir
          removed := s.removed ++ [statePath entry.name] }) := by
      simp only [clearRound, Storage.call, ho, hsome, hk, Bool.not_true, Bool.false_eq_true, if_false]
      rw [if_neg (statePath_fits entry), cstr_of_not_mem entry.plain]
      simp [Storage.osalRemove, Storage.call, Storage.after, Nat.add_assoc]
    rw [hround]
    by_cases hr : s.outcome (s.calls + (1 + k + 1)) = true
    · right
      simp only [hr, if_true]
    · left
      refine ⟨fun hall => hr (hall _ (by omega)), ?_⟩
      simp only [hr, Bool.false_eq_true, if_false]
      rfl

/-! ## All rounds -/

/-- A clearing that succeeds has left no file exactly when no round of it misread. -/
theorem cleared_iff (n : Nat) (s : Storage) :
    ((clearRounds n s).1 = true → (clearRounds n s).2.dir.files = []) ↔ ∀ j < n, ∀ t, Rounds j s t → ¬ Misread t := by
  induction n generalizing s with
  | zero => simp [clearRounds]
  | succ n ih =>
    -- The rounds behind the first one are those of the storage it leaves.
    have first : ∀ {r : Round × Storage}, clearRound s = r → (∀ s', r ≠ (.continues, s')) →
        ((∀ j < n + 1, ∀ t, Rounds j s t → ¬ Misread t) ↔ ¬ Misread s) := by
      intro r he hends
      refine ⟨fun h => h 0 (by omega) s (.start s), fun h j _ t hr => ?_⟩
      cases hr with
      | start => exact h
      | round hstep _ => exact absurd (he ▸ hstep) (hends _)
    rcases clearRound_cases s with ⟨k, he, -, hno⟩ | ⟨k, he, hends⟩ | ⟨hno, entry, hm, k, ⟨-, he⟩ | he⟩
    · rw [first he (by simp), clearRounds, he]
      exact iff_of_true (by simp) hno
    · rw [first he (by simp), clearRounds, he]
      rcases hends with hnil | hmis
      · exact iff_of_true (fun _ => hnil) fun hmis => hmis.2.1 hnil
      · exact iff_of_false (fun h => hmis.2.1 (h rfl)) (not_not.2 hmis)
    · rw [first he (by simp), clearRounds, he]
      exact iff_of_true (by simp) hno
    · rw [clearRounds, he]
      dsimp only
      rw [ih]
      constructor
      · intro h j hj t hr
        cases hr with
        | start => exact hno
        | round hstep hr =>
          rw [he] at hstep
          cases hstep
          exact h _ (by omega) t hr
      · exact fun h j hj t hr => h (j + 1) (by omega) t (.round he hr)

/-- Where every call succeeds, a clearing succeeds exactly when it has more rounds than
there are files, and removes as many as it has rounds for. -/
theorem clearRounds_succeeds {n : Nat} {s : Storage} (hall : AllSucceed s) :
    ((clearRounds n s).1 = true ↔ s.dir.files.length < n) ∧
      (clearRounds n s).2.dir.files.length = s.dir.files.length - n := by
  induction n generalizing s with
  | zero => simp [clearRounds]
  | succ n ih =>
    have hno : ¬ Misread s := fun hm => by
      have never : ∀ (stream : List OsalDirent) (k : Nat), s.calls ≤ k → ¬ ReadFails s.outcome k stream := by
        intro stream
        induction stream with
        | nil => exact fun _ _ h => h
        | cons entry rest ih =>
          intro k hk h
          rcases h with h | ⟨-, h⟩
          · rw [hall k hk] at h
            cases h
          · exact ih (k + 1) (by omega) h
      exact never _ _ (by omega) hm.2.2
    rcases clearRound_cases s with ⟨k, -, hnot, -⟩ | ⟨k, he, hends⟩ | ⟨-, entry, hm, k, ⟨hnot, -⟩ | he⟩
    · exact absurd hall hnot
    · have hnil := hends.resolve_right hno
      rw [clearRounds, he]
      simp [hnil]
    · exact absurd hall hnot
    · rw [clearRounds, he]
      dsimp only
      have hpos := List.length_pos_of_mem hm
      have hrest : AllSucceed { s.after k with
          dir := s.dir.remove (statePath entry.name), removed := s.removed ++ [statePath entry.name] } :=
        fun m hk => hall m (Nat.le_trans (Nat.le_add_right _ _) hk)
      obtain ⟨hok, hlen⟩ := ih hrest
      rw [hok, hlen, remove_files hm, List.length_erase_of_mem hm]
      omega

/-- Entries that are no files stay, and what is removed are paths of files. -/
theorem clearRounds_spares (n : Nat) (s : Storage) :
    (∀ entry ∈ s.dir.entries, entry.isFile = false → entry ∈ (clearRounds n s).2.dir.entries) ∧
      ∀ path ∈ (clearRounds n s).2.removed, path ∈ s.removed ∨ ∃ entry ∈ s.dir.files, path = statePath entry.name := by
  induction n generalizing s with
  | zero => exact ⟨fun _ he _ => he, fun _ hp => .inl hp⟩
  | succ n ih =>
    have appended : ∀ {entry path}, entry ∈ s.dir.files → path ∈ s.removed ++ [statePath entry.name] →
        path ∈ s.removed ∨ ∃ entry ∈ s.dir.files, path = statePath entry.name := by
      intro entry path hm hp
      rcases List.mem_append.1 hp with hp | hp
      · exact .inl hp
      · exact .inr ⟨entry, hm, List.mem_singleton.1 hp⟩
    rcases clearRound_cases s with ⟨k, he, -⟩ | ⟨k, he, -⟩ | ⟨-, entry, hm, k, ⟨-, he⟩ | he⟩ <;> rw [clearRounds, he]
    · exact ⟨fun _ he _ => he, fun _ hp => .inl hp⟩
    · exact ⟨fun _ he _ => he, fun _ hp => .inl hp⟩
    · exact ⟨fun _ he _ => he, fun _ hp => appended hm hp⟩
    · dsimp only
      obtain ⟨hspared, hremoved⟩ := ih { s.after k with
        dir := s.dir.remove (statePath entry.name), removed := s.removed ++ [statePath entry.name] }
      constructor
      · intro other ho hf
        have hne : other ≠ entry := by
          rintro rfl
          rw [(isFile_iff.1 hm).2] at hf
          cases hf
        refine hspared other ?_ hf
        rw [remove_entries (isFile_iff.1 hm).1]
        exact (List.mem_erase_of_ne hne).2 ho
      · intro path hp
        rcases hremoved path hp with hp | ⟨other, ho, rfl⟩
        · exact appended hm hp
        · rw [remove_files hm] at ho
          exact .inr ⟨other, List.mem_of_mem_erase ho, rfl⟩

/-- Every directory and every outcome of the calls: a clearing keeps its promises exactly
when no round of it misreads the directory, and the files do not take up all its rounds
in a run without failures. -/
theorem clears_state_dir_iff (s : Storage) :
    Clears s ↔ (∀ j < FACTORY_RESET_STATE_FILES_MAX, ∀ t, Rounds j s t → ¬ Misread t) ∧
      ¬ (AllSucceed s ∧ s.dir.files.length = FACTORY_RESET_STATE_FILES_MAX) := by
  have hspares := clearRounds_spares FACTORY_RESET_STATE_FILES_MAX s
  rw [← cleared_iff]
  constructor
  · refine fun h => ⟨h.cleared, fun ⟨hall, hfull⟩ => ?_⟩
    have hok := (clearRounds_succeeds (n := FACTORY_RESET_STATE_FILES_MAX) hall).1.1 (h.complete hall hfull.le).1
    omega
  · rintro ⟨hcleared, hfull⟩
    refine ⟨hcleared, fun hall hle => ?_, hspares.1, hspares.2⟩
    have hok := (clearRounds_succeeds (n := FACTORY_RESET_STATE_FILES_MAX) hall).1.2
      (Nat.lt_of_le_of_ne hle fun he => hfull ⟨hall, he⟩)
    exact ⟨hok, hcleared hok⟩

/-- A directory with one file in it, whose first read fails. -/
def glitched : Storage where
  dir := ⟨[⟨ascii "user", .file, by decide, by decide⟩], by decide⟩
  listing := fun _ entries => entries
  listed := fun _ _ => .rfl
  outcome := fun n => n ≠ 1
  calls := 0
  removed := []

theorem read_error_leaves_file : ¬ ∀ s, Clears s := fun h =>
  absurd ((h glitched).cleared (by decide)) (by decide)

end LedLamp.AppMain
