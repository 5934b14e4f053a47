import LedLamp.CBuffer
import LedLamp.Conc.Exec
import LedLamp.AppConfig.Load
/-!
# The bounded read (`app_config.c`)

`read_whole_file` call by call and store by store. What the OSAL answers is left open,
except that no read returns more than it was asked for; a read may store anything in
the memory it is handed, whatever it returns. `none` is a store outside the caller's
buffer.

The loop invariant is `Filled`: the buffer starts with the bytes read so far. Every path
of a call is a `BoundedRead`, and returns what the read of `Load` returns for the file it
found (`readWholeFile_refines`).
-/

namespace LedLamp.AppConfig.Reading

open Conc

/-- One `osal_read` of `want` bytes: its result, and what the memory it was handed holds then. -/
structure ReadOutcome (want : Nat) where
  nread : Int
  region : List UInt8
  region_length : region.length = want
  nread_le : nread ≤ want

/-- The file calls; a read names the offset in the caller's buffer that it is handed. -/
inductive Op
  | osalStat (path : List UInt8)
  | osalOpenCreate (path : List UInt8)
  | osalRead (fd : Int) (offset want : Nat)
  | osalClose (fd : Int)
  deriving DecidableEq

/-- What each call returns: a status and the size it reports, a descriptor (negative on an
error), the outcome of a read, a status. -/
@[reducible] def Res : Op → Type
  | .osalStat _ => OsalStatus × Nat
  | .osalOpenCreate _ => Int
  | .osalRead _ _ want => ReadOutcome want
  | .osalClose _ => OsalStatus

abbrev Act := Prog Op Res

/-- One call. -/
abbrev act (o : Op) : Act (Res o) := .perform o

/-! ## The function -/

/-- The buffer and the locals `total` and `status`. -/
structure Locals where
  buf : List UInt8
  total : Nat
  status : AppConfigStatus

/-- The `while` loop. -/
def readLoop (fd : Int) (cap : Nat) (buf : List UInt8) (total : Nat) : Act (Option Locals) :=
  if total ≤ APP_CONFIG_MAX_FILE_BYTES then do
    let read ← act (.osalRead fd total (readWant cap total))
    match CBuffer.store buf total read.region with
    | none => return none
    | some buf =>
      if read.nread < 0 then return some ⟨buf, total, .error .errIo⟩
      else if read.nread = 0 then return some ⟨buf, total, .ok⟩
      else readLoop fd cap buf (total + read.nread.toNat)
  else return some ⟨buf, total, .ok⟩
termination_by APP_CONFIG_MAX_FILE_BYTES + 1 - total

/-- What a call returns, and what the pointers `buf` and `out_len` point to then. -/
structure Returned where
  status : AppConfigStatus
  buf : Option (List UInt8)
  outLen : Option Nat

/-- What follows a successful `osal_open_create`. -/
def readOpened (fd : Int) (cap : Nat) (buf : List UInt8) : Act (Option Returned) := do
  match ← readLoop fd cap buf 0 with
  | none => return none
  | some ⟨buf, total, status⟩ =>
    let closeRc ← act (.osalClose fd)
    if status ≠ .ok then return some ⟨status, some buf, some 0⟩
    else if closeRc ≠ .success then return some ⟨.error .errIo, some buf, some 0⟩
    else if total > APP_CONFIG_MAX_FILE_BYTES then return some ⟨.error .errBounds, some buf, some 0⟩
    else return (CBuffer.store buf total [0]).map fun buf => ⟨.ok, some buf, some total⟩

/-- `read_whole_file`; `none` for a pointer is NULL. -/
def readWholeFile (path buf : Option (List UInt8)) (cap : Nat) (outLen : Option Nat) : Act (Option Returned) :=
  match path, buf, outLen with
  | some path, some chars, some _ =>
    if cap = 0 then return some ⟨.error .errInvalidArgument, buf, outLen⟩
    else match CBuffer.store chars 0 [0] with
      | none => return none
      | some chars => do
        let (rc, size) ← act (.osalStat path)
        if rc ≠ .success then
          return some ⟨.error (if statusIsMissing rc then .errNotFound else .errIo), some chars, some 0⟩
        else if size > APP_CONFIG_MAX_FILE_BYTES then return some ⟨.error .errBounds, some chars, some 0⟩
        else
          let fd ← act (.osalOpenCreate path)
          if fd < 0 then return some ⟨.error .errIo, some chars, some 0⟩
          else readOpened fd cap chars
  | _, _, _ => return some ⟨.error .errInvalidArgument, buf, outLen⟩

/-! ## What a call did -/

/-- The result of a read. -/
def nreadOf : Done Op Res → Option Int
  | ⟨.osalRead _ _ _, read⟩ => some read.nread
  | _ => none

/-- The bytes a read reports. -/
def bytesOf : Done Op Res → List UInt8
  | ⟨.osalRead _ _ _, read⟩ => read.region.take read.nread.toNat
  | _ => []

/-- A read as the file gives it. -/
def resultOf : Done Op Res → Option ReadResult
  | ⟨.osalRead _ _ _, read⟩ => some (if read.nread < 0 then .error else .data (read.region.take read.nread.toNat))
  | _ => none

def statOf : Done Op Res → Option (OsalStatus × Nat)
  | ⟨.osalStat _, reported⟩ => some reported
  | _ => none

def openOf : Done Op Res → Option Int
  | ⟨.osalOpenCreate _, fd⟩ => some fd
  | _ => none

def closeOf : Done Op Res → Option OsalStatus
  | ⟨.osalClose _, closeRc⟩ => some closeRc
  | _ => none

section Vocabulary
variable (done : List (Done Op Res))

/-- The results of the reads, oldest first. -/
def reads : List Int := done.filterMap nreadOf

def bytesRead : List UInt8 := done.flatMap bytesOf

def EndOfFile : Prop := 0 ∈ reads done

def ReadFails : Prop := ∃ nread ∈ reads done, nread < 0

/-- The size report says that the file is missing. -/
def Missing : Prop := ∃ reported ∈ done.filterMap statOf, reported.1 = .errNameNotFound ∨ reported.1 = .fsErrPathInvalid

/-- The file opens; it is only tried after a size report that succeeds. -/
def Opens : Prop := ∃ fd ∈ done.filterMap openOf, 0 ≤ fd

def Closes : Prop := .success ∈ done.filterMap closeOf

def CloseFails : Prop := ∃ closeRc ∈ done.filterMap closeOf, closeRc ≠ .success

end Vocabulary

@[simp] theorem reads_nil : reads [] = [] := rfl

@[simp] theorem bytesRead_nil : bytesRead [] = [] := rfl

@[simp] theorem not_readFails_nil : ¬ ReadFails [] := by simp [ReadFails]

@[simp] theorem not_endOfFile_nil : ¬ EndOfFile [] := by simp [EndOfFile]

section Cons
variable (fd : Int) (offset want : Nat) (read : ReadOutcome want) (rest : List (Done Op Res))

@[simp] theorem reads_cons : reads (⟨.osalRead fd offset want, read⟩ :: rest) = read.nread :: reads rest := rfl

@[simp] theorem bytesRead_cons : bytesRead (⟨.osalRead fd offset want, read⟩ :: rest) =
    read.region.take read.nread.toNat ++ bytesRead rest := rfl

@[simp] theorem readFails_cons :
    ReadFails (⟨.osalRead fd offset want, read⟩ :: rest) ↔ read.nread < 0 ∨ ReadFails rest := by
  simp [ReadFails]

@[simp] theorem endOfFile_cons :
    EndOfFile (⟨.osalRead fd offset want, read⟩ :: rest) ↔ read.nread = 0 ∨ EndOfFile rest := by
  simp [EndOfFile, eq_comm]

end Cons

/-! ## One turn of the loop -/

variable {done : List (Done Op Res)} {bytes buf : List UInt8} {total : Nat}

/-- The buffer starts with the `total` bytes read so far; at most one is beyond the bound. -/
structure Filled (bytes buf : List UInt8) (total : Nat) : Prop where
  size : buf.length = APP_CONFIG_WORK_BUF_BYTES
  total_eq : total = bytes.length
  total_le : total ≤ APP_CONFIG_WORK_BUF_BYTES
  take : buf.take total = bytes

/-- In a buffer of one byte more than the bound the room never limits a read. -/
theorem readWant_eq (total : Nat) : readWant APP_CONFIG_WORK_BUF_BYTES total =
    if total < APP_CONFIG_MAX_FILE_BYTES then APP_CONFIG_MAX_FILE_BYTES - total else 1 := by
  unfold readWant APP_CONFIG_WORK_BUF_BYTES APP_CONFIG_MAX_FILE_BYTES
  by_cases h : total < 2048
  · simp only [if_pos h]
    rw [if_neg (by omega)]
  · simp only [if_neg h]
    rw [if_neg (by omega)]

theorem readWant_pos (total : Nat) : 0 < readWant APP_CONFIG_WORK_BUF_BYTES total := by
  rw [readWant_eq]
  split <;> omega

theorem readWant_fits (h : total ≤ APP_CONFIG_MAX_FILE_BYTES) :
    total + readWant APP_CONFIG_WORK_BUF_BYTES total ≤ APP_CONFIG_WORK_BUF_BYTES := by
  rw [readWant_eq, APP_CONFIG_WORK_BUF_BYTES]
  split <;> omega

theorem Filled.read (h : Filled bytes buf total) (ht : total ≤ APP_CONFIG_MAX_FILE_BYTES)
    (read : ReadOutcome (readWant APP_CONFIG_WORK_BUF_BYTES total)) :
    ∃ buf', CBuffer.store buf total read.region = some buf' ∧
      Filled (bytes ++ read.region.take read.nread.toNat) buf' (total + read.nread.toNat) := by
  have hfits := readWant_fits ht
  have hle : read.nread.toNat ≤ read.region.length := by
    rw [read.region_length]
    exact Int.toNat_le.2 read.nread_le
  obtain ⟨buf', hs⟩ : ∃ buf', CBuffer.store buf total read.region = some buf' :=
    CBuffer.store_fits (by rw [read.region_length, h.size]; exact hfits)
  refine ⟨buf', hs, ?_, ?_, ?_, ?_⟩
  · rw [CBuffer.store_length hs, h.size]
  · rw [List.length_append, List.length_take_of_le hle, ← h.total_eq]
  · rw [read.region_length] at hle
    omega
  · rw [CBuffer.take_store hs hle, h.take]

/-- What one turn of the loop does. -/
theorem readLoop_cases {fd : Int} {r : Option Locals} (hf : Filled bytes buf total)
    (h : (readLoop fd APP_CONFIG_WORK_BUF_BYTES buf total).Path done r) :
    (APP_CONFIG_MAX_FILE_BYTES < total ∧ done = [] ∧ r = some ⟨buf, total, .ok⟩) ∨
    total ≤ APP_CONFIG_MAX_FILE_BYTES ∧ ∃ read rest buf',
      done = ⟨.osalRead fd total (readWant APP_CONFIG_WORK_BUF_BYTES total), read⟩ :: rest ∧
      Filled (bytes ++ read.region.take read.nread.toNat) buf' (total + read.nread.toNat) ∧
      ((read.nread ≤ 0 ∧ rest = [] ∧ r = some ⟨buf', total, if read.nread < 0 then .error .errIo else .ok⟩) ∨
        (0 < read.nread ∧ (readLoop fd APP_CONFIG_WORK_BUF_BYTES buf' (total + read.nread.toNat)).Path rest r)) := by
  rw [readLoop] at h
  by_cases ht : total ≤ APP_CONFIG_MAX_FILE_BYTES
  swap
  · rw [if_neg ht] at h
    exact .inl ⟨not_le.1 ht, h⟩
  rw [if_pos ht, Prog.perform_bind, Prog.path_op] at h
  obtain ⟨read, rest, rfl, h⟩ := h
  obtain ⟨buf', hs, hf'⟩ := hf.read ht read
  refine .inr ⟨ht, read, rest, buf', rfl, hf', ?_⟩
  simp only [hs] at h
  by_cases hneg : read.nread < 0
  · rw [if_pos hneg] at h
    exact .inl ⟨by omega, by rw [if_pos hneg]; exact h⟩
  rw [if_neg hneg] at h
  by_cases hzero : read.nread = 0
  · rw [if_pos hzero] at h
    exact .inl ⟨by omega, by rw [if_neg hneg]; exact h⟩
  rw [if_neg hzero] at h
  exact .inr ⟨by omega, h⟩

/-! ## The whole loop -/

/-- What the loop did from `total` bytes on, and the locals it leaves. -/
structure Looped (fd : Int) (bytes : List UInt8) (total : Nat) (done : List (Done Op Res)) (l : Locals) : Prop where
  filled : Filled (bytes ++ bytesRead done) l.buf l.total
  ops : ∀ d ∈ done, ∃ offset want read, d = ⟨.osalRead fd offset want, read⟩ ∧
    0 < want ∧ offset + want ≤ APP_CONFIG_WORK_BUF_BYTES
  length_le : total + done.length ≤ APP_CONFIG_WORK_BUF_BYTES
  status : l.status = .ok ∨ l.status = .error .errIo
  fails : ReadFails done ↔ l.status = .error .errIo
  ends : EndOfFile done ↔ l.status = .ok ∧ l.total ≤ APP_CONFIG_MAX_FILE_BYTES
  beyond : APP_CONFIG_MAX_FILE_BYTES < l.total → l.status = .ok
  model : AppConfig.readLoop APP_CONFIG_WORK_BUF_BYTES (done.filterMap resultOf) bytes =
    if l.status = .ok then some (bytes ++ bytesRead done) else none

section Turn
variable {fd : Int} {l : Locals} {rest : List (Done Op Res)}
  {read : ReadOutcome (readWant APP_CONFIG_WORK_BUF_BYTES total)}

theorem Looped.exit (hf : Filled bytes buf total) (ht : APP_CONFIG_MAX_FILE_BYTES < total) :
    Looped fd bytes total [] ⟨buf, total, .ok⟩ where
  filled := by simpa using hf
  ops := by simp
  length_le := hf.total_le
  status := .inl rfl
  fails := by simp
  ends := by simpa using ht
  beyond _ := rfl
  model := by simp [AppConfig.readLoop]

theorem Looped.last (hlen : total = bytes.length) (ht : total ≤ APP_CONFIG_MAX_FILE_BYTES) (h0 : read.nread ≤ 0)
    (hf : Filled (bytes ++ read.region.take read.nread.toNat) buf (total + read.nread.toNat)) :
    Looped fd bytes total [⟨.osalRead fd total (readWant APP_CONFIG_WORK_BUF_BYTES total), read⟩]
      ⟨buf, total, if read.nread < 0 then .error .errIo else .ok⟩ := by
  have hn : read.nread.toNat = 0 := Int.toNat_of_nonpos h0
  refine ⟨by simpa [hn] using hf, ?_, Nat.succ_le_succ ht, ?_, ?_, ?_, fun hgt => absurd ht (not_le.2 hgt), ?_⟩
  · rintro d hd
    exact ⟨total, _, read, List.mem_singleton.1 hd, readWant_pos total, readWant_fits ht⟩
  · by_cases hneg : read.nread < 0 <;> simp [hneg]
  · simp
  · by_cases hneg : read.nread < 0
    · have hne : read.nread ≠ 0 := by omega
      simp [hneg, hne]
    · have hzero : read.nread = 0 := by omega
      simp [hzero, ht]
  · by_cases hneg : read.nread < 0 <;> simp [AppConfig.readLoop, resultOf, ← hlen, ht, hneg, hn]

theorem Looped.step (hlen : total = bytes.length) (ht : total ≤ APP_CONFIG_MAX_FILE_BYTES) (hpos : 0 < read.nread)
    (h : Looped fd (bytes ++ read.region.take read.nread.toNat) (total + read.nread.toNat) rest l) :
    Looped fd bytes total (⟨.osalRead fd total (readWant APP_CONFIG_WORK_BUF_BYTES total), read⟩ :: rest) l where
  filled := by simpa using h.filled
  ops d hd := by
    rcases List.mem_cons.1 hd with rfl | hd
    · exact ⟨total, _, read, rfl, readWant_pos total, readWant_fits ht⟩
    · exact h.ops d hd
  length_le := by
    have := h.length_le
    rw [List.length_cons]
    omega
  status := h.status
  fails := by rw [readFails_cons, h.fails, or_iff_right (by omega)]
  ends := by rw [endOfFile_cons, h.ends, or_iff_right (by omega)]
  beyond := h.beyond
  model := by
    have hchunk : (read.region.take read.nread.toNat).length = read.nread.toNat := by
      rw [List.length_take, read.region_length, min_eq_left (Int.toNat_le.2 read.nread_le)]
    have hfits : (read.region.take read.nread.toNat).take (readWant APP_CONFIG_WORK_BUF_BYTES total) =
        read.region.take read.nread.toNat :=
      List.take_of_length_le (by rw [hchunk]; exact Int.toNat_le.2 read.nread_le)
    have hne : read.region.take read.nread.toNat ≠ [] := List.ne_nil_of_length_pos (by omega)
    have hneg : ¬ read.nread < 0 := by omega
    have hres : resultOf ⟨.osalRead fd total (readWant APP_CONFIG_WORK_BUF_BYTES total), read⟩ =
        some (.data (read.region.take read.nread.toNat)) := by simp [resultOf, hneg]
    rw [List.filterMap_cons_some hres, AppConfig.readLoop, ← hlen, if_pos ht]
    simp only [hfits, if_neg hne, h.model, bytesRead_cons, List.append_assoc]

end Turn

/-- Every path of the loop, by induction on the room left in the buffer. -/
theorem readLoop_looped {fd : Int} {r : Option Locals} (hf : Filled bytes buf total)
    (h : (readLoop fd APP_CONFIG_WORK_BUF_BYTES buf total).Path done r) :
    ∃ l, r = some l ∧ Looped fd bytes total done l := by
  induction hn : APP_CONFIG_WORK_BUF_BYTES - total using Nat.strong_induction_on generalizing bytes buf total done with
  | _ n ih =>
    rcases readLoop_cases hf h with ⟨ht, rfl, rfl⟩ | ⟨ht, read, rest, buf', rfl, hf', h⟩
    · exact ⟨_, rfl, .exit hf ht⟩
    rcases h with ⟨h0, rfl, rfl⟩ | ⟨hpos, h⟩
    · exact ⟨_, rfl, .last hf.total_eq ht h0 hf'⟩
    · have hless : APP_CONFIG_WORK_BUF_BYTES - (total + read.nread.toNat) < n := by
        have : total < APP_CONFIG_WORK_BUF_BYTES := Nat.lt_succ_of_le ht
        omega
      obtain ⟨l, rfl, hl⟩ := ih _ hless hf' h rfl
      exact ⟨l, rfl, hl.step hf.total_eq ht hpos⟩

/-! ## The whole call -/

/-- What follows a successful open: the loop, the close, and the checks behind it. -/
theorem readOpened_cases {fd : Int} {r : Option Returned} (hf : Filled [] buf 0)
    (h : (readOpened fd APP_CONFIG_WORK_BUF_BYTES buf).Path done r) :
    ∃ looped l closeRc, done = looped ++ [⟨.osalClose fd, closeRc⟩] ∧ Looped fd [] 0 looped l ∧
      ((r = some ⟨.error .errIo, some l.buf, some 0⟩ ∧ (l.status = .error .errIo ∨ closeRc ≠ .success)) ∨
        l.status = .ok ∧ closeRc = .success ∧
          ((APP_CONFIG_MAX_FILE_BYTES < l.total ∧ r = some ⟨.error .errBounds, some l.buf, some 0⟩) ∨
            l.total ≤ APP_CONFIG_MAX_FILE_BYTES ∧ ∃ buf', CBuffer.store l.buf l.total [0] = some buf' ∧
              r = some ⟨.ok, some buf', some l.total⟩)) := by
  rw [readOpened, Prog.path_bind] at h
  obtain ⟨looped, l', rest, rfl, hloop, h⟩ := h
  obtain ⟨l, rfl, hl⟩ := readLoop_looped hf hloop
  simp only [Prog.perform_bind, Prog.path_op] at h
  obtain ⟨closeRc, rest, rfl, h⟩ := h
  by_cases hstatus : l.status = .ok
  swap
  · rw [if_pos hstatus] at h
    obtain ⟨rfl, rfl⟩ := h
    have herr := hl.status.resolve_left hstatus
    exact ⟨looped, l, closeRc, rfl, hl, .inl ⟨by rw [herr], .inl herr⟩⟩
  rw [if_neg (not_not.2 hstatus)] at h
  by_cases hclose : closeRc = .success
  swap
  · rw [if_pos hclose] at h
    obtain ⟨rfl, rfl⟩ := h
    exact ⟨looped, l, closeRc, rfl, hl, .inl ⟨rfl, .inr hclose⟩⟩
  rw [if_neg (not_not.2 hclose)] at h
  by_cases hover : l.total > APP_CONFIG_MAX_FILE_BYTES
  · rw [if_pos hover] at h
    obtain ⟨rfl, rfl⟩ := h
    exact ⟨looped, l, closeRc, rfl, hl, .inr ⟨hstatus, hclose, .inl ⟨hover, rfl⟩⟩⟩
  rw [if_neg hover] at h
  obtain ⟨rfl, rfl⟩ := h
  have hle : l.total ≤ APP_CONFIG_MAX_FILE_BYTES := not_lt.1 hover
  obtain ⟨buf', hs⟩ : ∃ buf', CBuffer.store l.buf l.total [0] = some buf' :=
    CBuffer.store_fits (by rw [hl.filled.size]; exact Nat.succ_le_succ hle)
  exact ⟨looped, l, closeRc, rfl, hl, .inr ⟨hstatus, hclose, .inr ⟨hle, buf', hs, by rw [hs]; rfl⟩⟩⟩

/-- The calls before the loop. -/
theorem readWholeFile_cases {path : List UInt8} {caller : CharArray APP_CONFIG_WORK_BUF_BYTES} {outLen : Nat}
    {r : Option Returned}
    (h : (readWholeFile (some path) (some caller.chars) APP_CONFIG_WORK_BUF_BYTES (some outLen)).Path done r) :
    ∃ buf reported rest, Filled [] buf 0 ∧ done = ⟨.osalStat path, reported⟩ :: rest ∧
      ((rest = [] ∧ reported.1 ≠ .success ∧
          r = some ⟨.error (if statusIsMissing reported.1 then .errNotFound else .errIo), some buf, some 0⟩) ∨
        reported.1 = .success ∧
          ((rest = [] ∧ APP_CONFIG_MAX_FILE_BYTES < reported.2 ∧ r = some ⟨.error .errBounds, some buf, some 0⟩) ∨
            reported.2 ≤ APP_CONFIG_MAX_FILE_BYTES ∧ ∃ fd rest', rest = ⟨.osalOpenCreate path, fd⟩ :: rest' ∧
              ((rest' = [] ∧ fd < 0 ∧ r = some ⟨.error .errIo, some buf, some 0⟩) ∨
                0 ≤ fd ∧ (readOpened fd APP_CONFIG_WORK_BUF_BYTES buf).Path rest' r))) := by
  obtain ⟨buf, hs⟩ : ∃ buf, CBuffer.store caller.chars 0 [0] = some buf :=
    CBuffer.store_fits (by rw [caller.full]; decide)
  have hf : Filled [] buf 0 := ⟨by rw [CBuffer.store_length hs, caller.full], rfl, Nat.zero_le _, rfl⟩
  simp only [readWholeFile, if_neg (show APP_CONFIG_WORK_BUF_BYTES ≠ 0 by decide), hs, Prog.perform_bind,
    Prog.path_op] at h
  obtain ⟨reported, rest, rfl, h⟩ := h
  refine ⟨buf, reported, rest, hf, rfl, ?_⟩
  by_cases hrc : reported.1 = .success
  swap
  · rw [if_pos hrc] at h
    exact .inl ⟨h.1, hrc, h.2⟩
  rw [if_neg (not_not.2 hrc)] at h
  refine .inr ⟨hrc, ?_⟩
  by_cases hsize : reported.2 > APP_CONFIG_MAX_FILE_BYTES
  · rw [if_pos hsize] at h
    exact .inl ⟨h.1, hsize, h.2⟩
  rw [if_neg hsize, Prog.path_op] at h
  obtain ⟨fd, rest', rfl, h⟩ := h
  refine .inr ⟨not_lt.1 hsize, fd, rest', rfl, ?_⟩
  by_cases hfd : fd < 0
  · rw [if_pos hfd] at h
    exact .inl ⟨h.1, hfd, h.2⟩
  rw [if_neg hfd] at h
  exact .inr ⟨Int.not_lt.1 hfd, h⟩

/-- The calls made when the file opens. -/
def openedCalls (path : List UInt8) (reported : OsalStatus × Nat) (fd : Int) (looped : List (Done Op Res))
    (closeRc : OsalStatus) : List (Done Op Res) :=
  ⟨.osalStat path, reported⟩ :: ⟨.osalOpenCreate path, fd⟩ :: (looped ++ [⟨.osalClose fd, closeRc⟩])

section Opened
variable {path : List UInt8} {reported : OsalStatus × Nat} {fd : Int} {l : Locals} {looped : List (Done Op Res)}
  {closeRc : OsalStatus}

@[simp] theorem reads_opened : reads (openedCalls path reported fd looped closeRc) = reads looped := by
  simp [openedCalls, reads, List.filterMap_cons, nreadOf]

@[simp] theorem bytesRead_opened : bytesRead (openedCalls path reported fd looped closeRc) = bytesRead looped := by
  simp [openedCalls, bytesRead, bytesOf]

@[simp] theorem endOfFile_opened : EndOfFile (openedCalls path reported fd looped closeRc) ↔ EndOfFile looped := by
  rw [EndOfFile, reads_opened, EndOfFile]

@[simp] theorem readFails_opened : ReadFails (openedCalls path reported fd looped closeRc) ↔ ReadFails looped := by
  rw [ReadFails, reads_opened, ReadFails]

/-- The loop only reads. -/
theorem Looped.filterMap_nil {β : Type} {f : Done Op Res → Option β} (hl : Looped fd bytes total looped l)
    (hf : ∀ offset want read, f ⟨.osalRead fd offset want, read⟩ = none) : looped.filterMap f = [] := by
  rw [List.filterMap_eq_nil_iff]
  intro d hd
  obtain ⟨offset, want, read, rfl, -⟩ := hl.ops d hd
  exact hf offset want read

theorem Looped.closes (hl : Looped fd bytes total looped l) :
    (openedCalls path reported fd looped closeRc).filterMap closeOf = [closeRc] := by
  have h := hl.filterMap_nil (f := closeOf) fun _ _ _ => rfl
  simp [openedCalls, List.filterMap_cons, h, closeOf]

theorem Looped.opens (hl : Looped fd bytes total looped l) :
    (openedCalls path reported fd looped closeRc).filterMap openOf = [fd] := by
  have h := hl.filterMap_nil (f := openOf) fun _ _ _ => rfl
  simp [openedCalls, List.filterMap_cons, h, openOf]

theorem Looped.stats (hl : Looped fd bytes total looped l) :
    (openedCalls path reported fd looped closeRc).filterMap statOf = [reported] := by
  have h := hl.filterMap_nil (f := statOf) fun _ _ _ => rfl
  simp [openedCalls, List.filterMap_cons, h, statOf]

end Opened

/-! ## What a caller with a buffer of one byte more than the bound gets -/

/-- What a call did, with its status and what it leaves in the buffer and in `*out_len`. -/
structure BoundedRead (done : List (Done Op Res)) (status : AppConfigStatus) (buf : List UInt8) (outLen : Nat) :
    Prop where
  size : buf.length = APP_CONFIG_WORK_BUF_BYTES
  stores : ∀ d ∈ done, ∀ fd offset want, d.op = .osalRead fd offset want → offset + want ≤ APP_CONFIG_WORK_BUF_BYTES
  reads_le : (reads done).length ≤ APP_CONFIG_WORK_BUF_BYTES
  ok_iff : Opens done →
    (status = .ok ↔ EndOfFile done ∧ (bytesRead done).length ≤ APP_CONFIG_MAX_FILE_BYTES ∧ Closes done)
  contents : status = .ok → outLen = (bytesRead done).length ∧ ∃ rest, buf = bytesRead done ++ 0 :: rest
  beyond : APP_CONFIG_MAX_FILE_BYTES < (bytesRead done).length → Closes done → status = .error .errBounds
  io : ReadFails done ∨ CloseFails done → status = .error .errIo
  notFound : status = .error .errNotFound → Missing done

/-- A call that ends before the loop. -/
theorem BoundedRead.early {path : List UInt8} {reported : OsalStatus × Nat} {rest : List (Done Op Res)}
    {e : AppConfigError} (hf : Filled [] buf 0) (hrest : rest = [] ∨ ∃ fd, fd < 0 ∧ rest = [⟨.osalOpenCreate path, fd⟩])
    (he : e = .errNotFound → statusIsMissing reported.1 = true) :
    BoundedRead (⟨.osalStat path, reported⟩ :: rest) (.error e) buf 0 := by
  have hreads : reads (⟨.osalStat path, reported⟩ :: rest) = [] := by
    rcases hrest with rfl | ⟨fd, -, rfl⟩ <;> simp [reads, List.filterMap_cons, nreadOf]
  have hbytes : bytesRead (⟨.osalStat path, reported⟩ :: rest) = [] := by
    rcases hrest with rfl | ⟨fd, -, rfl⟩ <;> simp [bytesRead, bytesOf]
  have hcloses : (⟨.osalStat path, reported⟩ :: rest).filterMap closeOf = [] := by
    rcases hrest with rfl | ⟨fd, -, rfl⟩ <;> simp [List.filterMap_cons, closeOf]
  refine ⟨hf.size, ?_, by simp [hreads], ?_, nofun, by simp [hbytes], ?_, ?_⟩
  · rcases hrest with rfl | ⟨fd, -, rfl⟩ <;> simp
  · rcases hrest with rfl | ⟨fd, hfd, rfl⟩
    · simp [Opens, List.filterMap_cons, openOf]
    · have hfd' : ¬ 0 ≤ fd := Int.not_le.2 hfd
      simp [Opens, List.filterMap_cons, openOf, hfd']
  · simp [ReadFails, CloseFails, hreads, hcloses]
  · intro h
    obtain rfl : e = .errNotFound := by simpa using h
    have hmissing := he rfl
    exact ⟨reported, by simp [statOf], by simpa [statusIsMissing] using hmissing⟩

section Opened
variable {path : List UInt8} {reported : OsalStatus × Nat} {fd : Int} {l : Locals} {looped : List (Done Op Res)}
  {closeRc : OsalStatus} {status : AppConfigStatus} {outLen : Nat}

/-- A call that opens the file; its status follows from the loop's and the close's. -/
theorem BoundedRead.opened (hl : Looped fd [] 0 looped l) (hsize : buf.length = APP_CONFIG_WORK_BUF_BYTES)
    (hok : status = .ok ↔ l.status = .ok ∧ closeRc = .success ∧ l.total ≤ APP_CONFIG_MAX_FILE_BYTES)
    (hcontents : status = .ok → outLen = l.total ∧ ∃ rest, buf = bytesRead looped ++ 0 :: rest)
    (hover : l.status = .ok → closeRc = .success → APP_CONFIG_MAX_FILE_BYTES < l.total → status = .error .errBounds)
    (hio : l.status = .error .errIo ∨ closeRc ≠ .success → status = .error .errIo)
    (hnotFound : status ≠ .error .errNotFound) :
    BoundedRead (openedCalls path reported fd looped closeRc) status buf outLen := by
  have htotal : l.total = (bytesRead looped).length := hl.filled.total_eq
  have hcloses : Closes (openedCalls path reported fd looped closeRc) ↔ closeRc = .success := by
    rw [Closes, hl.closes, List.mem_singleton, eq_comm]
  have hcloseFails : CloseFails (openedCalls path reported fd looped closeRc) ↔ closeRc ≠ .success := by
    simp only [CloseFails, hl.closes, List.mem_singleton, exists_eq_left]
  refine ⟨hsize, ?_, ?_, fun _ => ?_, ?_, ?_, ?_, fun h => absurd h hnotFound⟩
  · intro d hd fd' offset want ho
    simp only [openedCalls, List.mem_cons, List.mem_append, List.not_mem_nil, or_false] at hd
    rcases hd with rfl | rfl | hd | rfl
    · cases ho
    · cases ho
    · obtain ⟨offset', want', read, rfl, -, hle⟩ := hl.ops d hd
      cases ho
      exact hle
    · cases ho
  · rw [reads_opened]
    have hlen := hl.length_le
    exact (List.length_filterMap_le _ _).trans (by omega)
  · rw [hok, endOfFile_opened, bytesRead_opened, hl.ends, hcloses, ← htotal]
    constructor
    · rintro ⟨h1, h2, h3⟩
      exact ⟨⟨h1, h3⟩, h3, h2⟩
    · rintro ⟨⟨h1, h3⟩, -, h2⟩
      exact ⟨h1, h2, h3⟩
  · rwa [bytesRead_opened, ← htotal]
  · intro hmore hclose
    rw [bytesRead_opened, ← htotal] at hmore
    exact hover (hl.beyond hmore) (hcloses.1 hclose) hmore
  · rwa [readFails_opened, hl.fails, hcloseFails]

end Opened

/-- Every path of the call, by the calls it comes to. -/
theorem path_bounded {path : List UInt8} {caller : CharArray APP_CONFIG_WORK_BUF_BYTES} {outLen : Nat}
    {r : Option Returned}
    (h : (readWholeFile (some path) (some caller.chars) APP_CONFIG_WORK_BUF_BYTES (some outLen)).Path done r) :
    ∃ status buf outLen', r = some ⟨status, some buf, some outLen'⟩ ∧ BoundedRead done status buf outLen' := by
  obtain ⟨buf, reported, rest, hf, rfl, ⟨rfl, -, rfl⟩ | ⟨-, ⟨rfl, -, rfl⟩ | ⟨-, fd, rest, rfl, hfd⟩⟩⟩ :=
    readWholeFile_cases h
  · refine ⟨_, buf, 0, rfl, .early hf (.inl rfl) fun he => ?_⟩
    by_contra hmissing
    rw [if_neg hmissing] at he
    cases he
  · exact ⟨_, buf, 0, rfl, .early hf (.inl rfl) nofun⟩
  rcases hfd with ⟨rfl, hfd, rfl⟩ | ⟨-, hopened⟩
  · exact ⟨_, buf, 0, rfl, .early hf (.inr ⟨fd, hfd, rfl⟩) nofun⟩
  obtain ⟨looped, l, closeRc, rfl, hl, ⟨rfl, hfailed⟩ | ⟨hstatus, rfl, ⟨hover, rfl⟩ | ⟨hle, buf', hs, rfl⟩⟩⟩ :=
    readOpened_cases hf hopened
  · refine ⟨_, l.buf, 0, rfl, .opened hl hl.filled.size ?_ nofun ?_ (fun _ => rfl) nofun⟩
    · simp only [reduceCtorEq, false_iff, not_and]
      rintro hok rfl
      exact absurd hfailed (by simp [hok])
    · rintro hok rfl
      exact absurd hfailed (by simp [hok])
  · refine ⟨_, l.buf, 0, rfl, .opened hl hl.filled.size ?_ nofun (fun _ _ _ => rfl) ?_ nofun⟩
    · simpa using fun _ => hover
    · simp [hstatus]
  · refine ⟨_, buf', l.total, rfl,
      .opened hl ?_ (by simp [hstatus, hle]) (fun _ => ⟨rfl, ?_⟩) ?_ (by simp [hstatus]) nofun⟩
    · rw [CBuffer.store_length hs, hl.filled.size]
    · obtain ⟨-, rfl⟩ := CBuffer.store_eq_some_iff.1 hs
      exact ⟨l.buf.drop (l.total + 1), by simp [hl.filled.take]⟩
    · exact fun _ _ hover => absurd hle (not_le.2 hover)

/-- A file with a byte for every byte asked for, whose close fails. -/
def growing : (o : Op) → Res o
  | .osalStat _ => (.success, 0)
  | .osalOpenCreate _ => 3
  | .osalRead _ _ want => ⟨want, List.replicate want 0x20, List.length_replicate, Int.le_refl _⟩
  | .osalClose _ => .other (-1)

theorem growing_fails {path : List UInt8} {caller : CharArray APP_CONFIG_WORK_BUF_BYTES} {outLen : Nat}
    {r : Option Returned} (hanswer : ∀ d ∈ done, d.res = growing d.op)
    (h : (readWholeFile (some path) (some caller.chars) APP_CONFIG_WORK_BUF_BYTES (some outLen)).Path done r) :
    ∃ buf, r = some ⟨.error .errIo, some buf, some 0⟩ ∧ APP_CONFIG_MAX_FILE_BYTES < (bytesRead done).length := by
  obtain ⟨buf, reported, rest, hf, rfl, hrest⟩ := readWholeFile_cases h
  obtain rfl : reported = (.success, 0) := hanswer ⟨.osalStat path, reported⟩ List.mem_cons_self
  obtain ⟨-, hne, -⟩ | ⟨-, ⟨-, hlt, -⟩ | ⟨-, fd, rest, rfl, hfd⟩⟩ := hrest
  · exact absurd rfl hne
  · exact absurd hlt (Nat.not_lt_zero _)
  obtain rfl : fd = 3 := hanswer ⟨.osalOpenCreate path, fd⟩ (by simp)
  obtain ⟨-, hneg, -⟩ | ⟨-, hopened⟩ := hfd
  · exact absurd hneg (Int.not_lt.2 (by decide : (0 : Int) ≤ 3))
  obtain ⟨looped, l, closeRc, rfl, hl, hend⟩ := readOpened_cases hf hopened
  obtain rfl : closeRc = .other (-1) := hanswer ⟨.osalClose 3, closeRc⟩ (by simp)
  -- No read fails or ends the file, so the loop stops behind the bound.
  have hpos : ∀ nread ∈ reads looped, 0 < nread := by
    intro nread hn
    obtain ⟨d, hd, hn⟩ := List.mem_filterMap.1 hn
    obtain ⟨offset, want, read, rfl, hwant, -⟩ := hl.ops d hd
    obtain rfl : read = growing (.osalRead 3 offset want) := hanswer ⟨.osalRead 3 offset want, read⟩ (by simp [hd])
    obtain rfl := Option.some.inj hn
    exact Int.natCast_pos.2 hwant
  have hok : l.status = .ok := hl.status.resolve_right fun e => by
    obtain ⟨nread, hn, hneg⟩ := hl.fails.2 e
    have := hpos nread hn
    omega
  have hover : APP_CONFIG_MAX_FILE_BYTES < l.total := by
    by_contra hle
    exact absurd (hpos 0 (hl.ends.2 ⟨hok, not_lt.1 hle⟩)) (by decide)
  rcases hend with ⟨rfl, -⟩ | ⟨-, hclose, -⟩
  · have htotal : l.total = (bytesRead looped).length := hl.filled.total_eq
    exact ⟨l.buf, rfl, by rw [← openedCalls, bytesRead_opened, ← htotal]; exact hover⟩
  · cases hclose

theorem growing_under (path : List UInt8) (caller : CharArray APP_CONFIG_WORK_BUF_BYTES) (outLen : Nat) :
    ∃ done buf, (readWholeFile (some path) (some caller.chars) APP_CONFIG_WORK_BUF_BYTES (some outLen)).under growing =
        (done, some ⟨.error .errIo, some buf, some 0⟩) ∧ APP_CONFIG_MAX_FILE_BYTES < (bytesRead done).length := by
  have hpath := Prog.under_path growing
    (readWholeFile (some path) (some caller.chars) APP_CONFIG_WORK_BUF_BYTES (some outLen))
  obtain ⟨buf, hr, hover⟩ := growing_fails (fun d hd => by rw [Prog.under_answer d hd]) hpath
  exact ⟨_, buf, Prod.ext rfl hr, hover⟩

theorem readWant_small {cap : Nat} (hcap : 1 < cap) (total : Nat) : 0 < readWant cap total := by
  unfold readWant
  dsimp only
  by_cases h : total < APP_CONFIG_MAX_FILE_BYTES
  · rw [if_pos h]
    split <;> omega
  · rw [if_neg h]
    split <;> omega

/-- In a buffer that does not exceed the bound, full reads go on until one ends behind it. -/
theorem readLoop_overruns {cap : Nat} {fd : Int} (h1 : 1 < cap) (hcap : cap ≤ APP_CONFIG_MAX_FILE_BYTES)
    (hbuf : buf.length = cap) (ht : total ≤ cap) : ((readLoop fd cap buf total).under growing).2 = none := by
  induction hn : cap - total using Nat.strong_induction_on generalizing buf total with
  | _ n ih =>
    have hwant := readWant_small h1 total
    rw [readLoop, if_pos (ht.trans hcap), Prog.perform_bind, Prog.under]
    generalize hread : growing (.osalRead fd total (readWant cap total)) = read
    have hnread : read.nread = readWant cap total := by
      rw [← hread]
      rfl
    by_cases hfits : total + readWant cap total ≤ cap
    · obtain ⟨buf', hs⟩ : ∃ buf', CBuffer.store buf total read.region = some buf' :=
        CBuffer.store_fits (by rw [read.region_length, hbuf]; exact hfits)
      have hneg : ¬ read.nread < 0 := by omega
      have hzero : read.nread ≠ 0 := by omega
      simp only [hs, if_neg hneg, if_neg hzero]
      exact ih _ (by omega) (by rw [CBuffer.store_length hs, hbuf]) (by omega) rfl
    · have hs : CBuffer.store buf total read.region = none := if_neg (by rw [read.region_length, hbuf]; exact hfits)
      simp only [hs]
      rfl

/-- The buffer has to exceed the bound, as the comment on `cap` says. -/
theorem readWholeFile_overruns (path : List UInt8) (outLen : Nat) (h1 : 1 < buf.length)
    (hcap : buf.length ≤ APP_CONFIG_MAX_FILE_BYTES) :
    ((readWholeFile (some path) (some buf) buf.length (some outLen)).under growing).2 = none := by
  obtain ⟨buf', hs⟩ : ∃ buf', CBuffer.store buf 0 [0] = some buf' :=
    CBuffer.store_fits (Nat.le_of_lt h1)
  have hloop : ((readLoop 3 buf.length buf' 0).under growing).2 = none :=
    readLoop_overruns h1 hcap (CBuffer.store_length hs) (Nat.zero_le _)
  have hopened : ((readOpened 3 buf.length buf').under growing).2 = none := by
    rw [readOpened, Prog.under_bind, hloop]
    rfl
  simp only [readWholeFile, if_neg (show buf.length ≠ 0 by omega), hs]
  exact hopened

/-! ## The read of `Load` -/

/-- The file as the calls found it; what they did not ask is left at a success. -/
def answered (done : List (Done Op Res)) : FileIo where
  stat := ((done.filterMap statOf).head?.map Prod.fst).getD .success
  size := ((done.filterMap statOf).head?.map Prod.snd).getD 0
  fd := (done.filterMap openOf).head?.getD 0
  reads := done.filterMap resultOf
  close := (done.filterMap closeOf).head?.getD .success

theorem Looped.answered {path : List UInt8} {reported : OsalStatus × Nat} {fd : Int} {l : Locals}
    {looped : List (Done Op Res)} {closeRc : OsalStatus} (hl : Looped fd bytes total looped l) :
    answered (openedCalls path reported fd looped closeRc) =
      ⟨reported.1, reported.2, fd, looped.filterMap resultOf, closeRc⟩ := by
  have hreads : (openedCalls path reported fd looped closeRc).filterMap resultOf = looped.filterMap resultOf := by
    simp [openedCalls, List.filterMap_cons, resultOf]
  simp [Reading.answered, hl.stats, hl.opens, hl.closes, hreads]

/-- The call returns what the read of `Load` returns for the file it found: the same status,
and on success the same bytes in front of the terminator. -/
theorem readWholeFile_refines {path : List UInt8} {caller : CharArray APP_CONFIG_WORK_BUF_BYTES} {outLen : Nat}
    {r : Option Returned}
    (h : (readWholeFile (some path) (some caller.chars) APP_CONFIG_WORK_BUF_BYTES (some outLen)).Path done r) :
    ∃ status buf outLen', r = some ⟨status, some buf, some outLen'⟩ ∧
      ((status = .ok ∧ AppConfig.readWholeFile (answered done) APP_CONFIG_WORK_BUF_BYTES = .ok (buf.take outLen')) ∨
        ∃ e, status = .error e ∧ AppConfig.readWholeFile (answered done) APP_CONFIG_WORK_BUF_BYTES = .error e) := by
  have hcap : APP_CONFIG_WORK_BUF_BYTES ≠ 0 := by decide
  obtain ⟨buf, reported, rest, hf, rfl, ⟨rfl, hrc, rfl⟩ | ⟨hrc, ⟨rfl, hsize, rfl⟩ | ⟨hsize, fd, rest, rfl, hfd⟩⟩⟩ :=
    readWholeFile_cases h
  · refine ⟨_, buf, 0, rfl, .inr ⟨_, rfl, ?_⟩⟩
    simp [AppConfig.readWholeFile, hcap, answered, statOf, hrc]
  · refine ⟨_, buf, 0, rfl, .inr ⟨_, rfl, ?_⟩⟩
    simp [AppConfig.readWholeFile, hcap, answered, statOf, hrc, hsize]
  rcases hfd with ⟨rfl, hfd, rfl⟩ | ⟨hfd, hopened⟩
  · refine ⟨_, buf, 0, rfl, .inr ⟨_, rfl, ?_⟩⟩
    simp [AppConfig.readWholeFile, hcap, answered, List.filterMap_cons, statOf, openOf, hrc, Nat.not_lt.2 hsize, hfd]
  obtain ⟨looped, l, closeRc, rfl, hl, hend⟩ := readOpened_cases hf hopened
  have htotal : l.total = (bytesRead looped).length := hl.filled.total_eq
  have hread : AppConfig.readWholeFile (answered (openedCalls path reported fd looped closeRc))
      APP_CONFIG_WORK_BUF_BYTES =
      if l.status ≠ .ok ∨ closeRc ≠ .success then .error .errIo
      else if l.total > APP_CONFIG_MAX_FILE_BYTES then .error .errBounds
      else .ok (bytesRead looped) := by
    rw [hl.answered]
    simp only [AppConfig.readWholeFile, if_neg hcap, hrc, if_neg (Nat.not_lt.2 hsize), if_neg (Int.not_lt.2 hfd),
      hl.model]
    by_cases hok : l.status = .ok
    · simp [hok, htotal]
    · simp [hok]
  rcases hend with ⟨rfl, hfailed⟩ | ⟨hok, rfl, ⟨hover, rfl⟩ | ⟨hle, buf', hs, rfl⟩⟩
  · have hor : l.status ≠ .ok ∨ closeRc ≠ .success := hfailed.imp_left fun e => by simp [e]
    exact ⟨_, l.buf, 0, rfl, .inr ⟨_, rfl, hread.trans (if_pos hor)⟩⟩
  · exact ⟨_, l.buf, 0, rfl, .inr ⟨_, rfl, by rw [← openedCalls, hread, if_neg (by simp [hok]), if_pos hover]⟩⟩
  · have htake : buf'.take l.total = bytesRead looped := by
      have := CBuffer.take_store hs (Nat.zero_le 1)
      simpa [hl.filled.take] using this
    refine ⟨_, buf', l.total, rfl, .inl ⟨rfl, ?_⟩⟩
    rw [← openedCalls, hread, if_neg (by simp [hok]), if_neg (Nat.not_lt.2 hle), htake]

end LedLamp.AppConfig.Reading
