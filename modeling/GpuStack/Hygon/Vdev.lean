import GpuStack.Device.Durable
import GpuStack.Hygon.Mask
import GpuStack.Lib.Text

/-!
# Hygon/Vdev — the records of Hygon slices

A slice is a `vdev.conf` in its container's work directory, a text of keyed lines that the runtime reads
and that the next allocation reads again.  `render` writes it and `parseVdevConf` reads it, and a record
that was written is read as it was (`parseVdevConf_render`).

`allocateVdev` derives the next slice from all the other records and writes its own.  `Allocates` is what
a call that writes has found.
-/

namespace GpuStack.Hygon

open List

open Text

def maxVdevID : ℤ := 200

def maxPipeID : ℤ := 20

/-- One record. -/
structure VdevConf where
  pciBusID : List Char
  mask : CuMask
  cuCount : ℤ
  memMib : Int64
  deviceID : ℤ
  vdevID : ℤ
  pipeID : ℤ
deriving DecidableEq

/-! ### The text of a record -/

/-- One keyed line. -/
def keyed (key : String) (val : List Char) : List Char := key.toList ++ ':' :: ' ' :: val

/-- A mask word, in sixteen hexadecimal digits. -/
def printWord (w : BitVec 64) : List Char := '0' :: 'x' :: (fixed 16 16 w.toNat).map digitChar

def VdevConf.lines (c : VdevConf) : List (List Char) :=
  [keyed "PciBusId" c.pciBusID,
    keyed "cu_mask" (printWord c.mask.lo),
    keyed "cu_mask" (printWord c.mask.hi),
    keyed "cu_count" (printInt c.cuCount),
    keyed "mem" (printInt c.memMib.toInt ++ " MiB".toList),
    keyed "device_id" (printInt c.deviceID),
    keyed "vdev_id" (printInt c.vdevID),
    keyed "pipe_id" (printInt c.pipeID),
    keyed "enable" "1".toList]

/-- The text of a record. -/
def VdevConf.render (c : VdevConf) : List Char := unlines c.lines

/-- Why a record cannot be read. -/
inductive ConfError
  | unreadable
  | malformedLine (line : List Char)
  | duplicateKey (key : List Char)
  | badField (key val : List Char)
  | incomplete
  | outOfRange (vdevID pipeID : ℤ)
deriving DecidableEq

/-- What has been read so far. -/
structure Reading where
  conf : VdevConf
  masks : List (BitVec 64)
  seen : List (List Char)

def Reading.start : Reading := ⟨⟨[], .empty, 0, 0, 0, 0, 0⟩, [], []⟩

/-- Read a signed field. -/
def readField (key val : List Char) (t : List Char) : Except ConfError ℤ :=
  match parseInt 64 t with
  | some z => .ok z
  | none => .error (.badField key val)

/-- The text without `0x` in front. -/
def withoutBase : List Char → List Char
  | '0' :: 'x' :: t => t
  | t => t

/-- Read a mask word. -/
def readWord (key val : List Char) : Except ConfError (BitVec 64) :=
  match Text.parseUint 16 64 (withoutBase val) with
  | some n => .ok (BitVec.ofNat 64 n)
  | none => .error (.badField key val)

/-- Read the field of a key; an unknown key is passed over. -/
def Reading.field (r : Reading) (key val : List Char) : Except ConfError Reading :=
  if key = "PciBusId".toList then .ok { r with conf := { r.conf with pciBusID := val } }
  else if key = "cu_mask".toList then do
    let m ← readWord key val
    return { r with masks := r.masks ++ [m] }
  else if key = "cu_count".toList then do
    let n ← readField key val val
    return { r with conf := { r.conf with cuCount := n } }
  else if key = "mem".toList then do
    let n ← readField key val (((cut ' ' val).map Prod.fst).getD val)
    return { r with conf := { r.conf with memMib := Int64.ofInt n } }
  else if key = "device_id".toList then do
    let n ← readField key val val
    return { r with conf := { r.conf with deviceID := n } }
  else if key = "vdev_id".toList then do
    let n ← readField key val val
    return { r with conf := { r.conf with vdevID := n } }
  else if key = "pipe_id".toList then do
    let n ← readField key val val
    return { r with conf := { r.conf with pipeID := n } }
  else .ok r

/-- Read one line; of the keys only `cu_mask` may come twice. -/
def Reading.line (r : Reading) (line : List Char) : Except ConfError Reading :=
  if trimSpace line = [] then .ok r
  else match cut ':' line with
  | none => .error (.malformedLine line)
  | some (key, val) =>
    let key := trimSpace key
    if key ≠ "cu_mask".toList ∧ key ∈ r.seen then .error (.duplicateKey key)
    else Reading.field { r with seen := key :: r.seen } key (trimSpace val)

/-- The record, if all that a slice is derived from has been read. -/
def Reading.finish (r : Reading) : Except ConfError VdevConf :=
  match r.masks with
  | [lo, hi] =>
    if r.conf.pciBusID = [] ∨ "cu_count".toList ∉ r.seen ∨ "vdev_id".toList ∉ r.seen ∨
        "pipe_id".toList ∉ r.seen then .error .incomplete
    else if r.conf.vdevID < 0 ∨ maxVdevID ≤ r.conf.vdevID ∨ r.conf.pipeID < 0 ∨
        maxPipeID ≤ r.conf.pipeID then .error (.outOfRange r.conf.vdevID r.conf.pipeID)
    else .ok { r.conf with mask := ⟨lo, hi⟩ }
  | _ => .error .incomplete

/-- **Read a record.** -/
def parseVdevConf (t : List Char) : Except ConfError VdevConf :=
  (Text.lines t).foldlM Reading.line Reading.start >>= Reading.finish

/-! ### A record written is read as it was -/

/-- A word that can stand before a colon. -/
def IsKey (key : List Char) : Prop := ':' ∉ key ∧ Trimmed key ∧ key ≠ []

instance (key : List Char) : Decidable (IsKey key) := inferInstanceAs (Decidable (_ ∧ _ ∧ _))

/-- A keyed line is read as its key and value. -/
theorem line_keyed {r r' : Reading} {key : String} {val : List Char} (hkey : IsKey key.toList)
    (hval : Trimmed val) (hnew : key.toList = "cu_mask".toList ∨ key.toList ∉ r.seen)
    (hfield : Reading.field { r with seen := key.toList :: r.seen } key.toList val = .ok r') :
    r.line (keyed key val) = .ok r' := by
  obtain ⟨hcolon, hends, hne⟩ := hkey
  have hblank : trimSpace (keyed key val) ≠ [] := by
    obtain ⟨c, t, ht⟩ := exists_cons_of_ne_nil hne
    have hc : isSpace c = false := hends.1 c (by rw [ht]; rfl)
    simp only [trimSpace, keyed, ne_eq, reverse_eq_nil_iff, dropWhile_eq_nil_iff,
      not_forall]
    refine ⟨c, ?_, by simp [hc]⟩
    rw [mem_reverse, ht, cons_append, dropWhile_cons_of_neg (by simp [hc])]
    exact .head _
  have hfree : ¬ (key.toList ≠ "cu_mask".toList ∧ key.toList ∈ r.seen) := by
    rintro ⟨hmask, hseen⟩
    exact hnew.elim hmask fun h => h hseen
  rw [Reading.line, if_neg hblank, keyed, cut_append _ hcolon]
  dsimp only
  rw [trimSpace_of_trimmed hends, trimSpace_space hval, if_neg hfree, hfield]

theorem trimmed_printInt (z : ℤ) : Trimmed (printInt z) :=
  trimmed_of_forall fun _ => isSpace_of_mem_printInt

theorem lt_of_mem_word {w : BitVec 64} {d : ℕ} (h : d ∈ fixed 16 16 w.toNat) : d < 16 :=
  lt_of_mem_fixed (by decide) h

theorem trimmed_printWord (w : BitVec 64) : Trimmed (printWord w) := by
  refine trimmed_of_forall fun c hc => ?_
  rcases mem_cons.mp hc with rfl | hc
  · decide
  rcases mem_cons.mp hc with rfl | hc
  · decide
  · exact isSpace_of_mem_map_digitChar le_rfl (fun _ => lt_of_mem_word) hc

theorem withoutBase_cons (t : List Char) : withoutBase ('0' :: 'x' :: t) = t := rfl

theorem readWord_printWord (key : List Char) (w : BitVec 64) :
    readWord key (printWord w) = .ok w := by
  have hpow : (16 : ℕ) ^ 16 = 2 ^ 64 := by norm_num
  have hlt : w.toNat < 2 ^ 64 := w.isLt
  have hvalue : value 16 (fixed 16 16 w.toNat) = w.toNat := value_fixed 16 (by rwa [hpow])
  have hread : Text.parseUint 16 64 (withoutBase (printWord w)) = some w.toNat := by
    rw [printWord, withoutBase_cons, Text.parseUint_map_digitChar le_rfl (fixed_ne_nil 16 _ (by decide))
      (fun _ => lt_of_mem_word) (by rwa [hvalue]), hvalue]
  rw [readWord, hread]
  exact congrArg Except.ok (by rw [BitVec.ofNat_toNat, BitVec.setWidth_eq])

theorem readField_printInt {key val : List Char} {z : ℤ} (hlo : -2 ^ 63 ≤ z) (hhi : z < 2 ^ 63) :
    readField key val (printInt z) = .ok z := by
  rw [readField, parseInt_printInt (by decide) hlo hhi]

/-- A record that allocation may write: its card's id is solid text, and its numbers are in range. -/
structure VdevConf.Sound (c : VdevConf) : Prop where
  named : c.pciBusID ≠ []
  solid : ∀ ch ∈ c.pciBusID, isSpace ch = false
  cuCount : -2 ^ 63 ≤ c.cuCount ∧ c.cuCount < 2 ^ 63
  deviceID : -2 ^ 63 ≤ c.deviceID ∧ c.deviceID < 2 ^ 63
  vdevID : 0 ≤ c.vdevID ∧ c.vdevID < maxVdevID
  pipeID : 0 ≤ c.pipeID ∧ c.pipeID < maxPipeID

/-- The size in MiB ends in a letter. -/
theorem trimmed_mem (z : ℤ) : Trimmed (printInt z ++ " MiB".toList) := by
  refine ⟨fun c hc => ?_, fun c hc => ?_⟩
  · rw [head?_append_of_ne_nil _ (printInt_ne_nil z)] at hc
    exact isSpace_of_mem_printInt (mem_of_mem_head? hc)
  · have hlast : c = 'B' := by simpa using hc.symm
    rw [hlast]
    decide

theorem cut_mem (z : ℤ) : cut ' ' (printInt z ++ " MiB".toList) = some (printInt z, "MiB".toList) :=
  cut_append _ fun h => absurd (isSpace_of_mem_printInt h) (by decide)

variable {c : VdevConf} {confs : List VdevConf}

/-- No line holds a line break. -/
theorem VdevConf.Sound.unbroken (h : c.Sound) : ∀ l ∈ c.lines, '\n' ∉ l := by
  have hkeyed : ∀ {key : String} {val : List Char}, '\n' ∉ key.toList → '\n' ∉ val →
      '\n' ∉ keyed key val := by
    intro key val hkey hval
    simp [keyed, hkey, hval]
  have hsolid : ∀ {val : List Char}, (∀ ch ∈ val, isSpace ch = false) → '\n' ∉ val :=
    fun hval hmem => absurd (hval _ hmem) (by decide)
  have hint : ∀ z, '\n' ∉ printInt z := fun z => hsolid fun _ => isSpace_of_mem_printInt
  have hword : ∀ w, '\n' ∉ printWord w := by
    intro w hmem
    have hrest : '\n' ∈ (fixed 16 16 w.toNat).map digitChar := by simpa [printWord] using hmem
    exact absurd (isSpace_of_mem_map_digitChar le_rfl (fun _ => lt_of_mem_word) hrest) (by decide)
  intro l hl
  simp only [lines, mem_cons, not_mem_nil, or_false] at hl
  rcases hl with rfl | rfl | rfl | rfl | rfl | rfl | rfl | rfl | rfl
  · exact hkeyed (by decide) (hsolid h.solid)
  · exact hkeyed (by decide) (hword _)
  · exact hkeyed (by decide) (hword _)
  · exact hkeyed (by decide) (hint _)
  · refine hkeyed (by decide) fun hmem => ?_
    rcases mem_append.mp hmem with hmem | hmem
    · exact hint _ hmem
    · exact absurd hmem (by decide)
  · exact hkeyed (by decide) (hint _)
  · exact hkeyed (by decide) (hint _)
  · exact hkeyed (by decide) (hint _)
  · exact hkeyed (by decide) (by decide)

section Field

variable {r : Reading} {val : List Char} {z : ℤ}

theorem field_cuMask {w : BitVec 64} (h : readWord "cu_mask".toList val = .ok w) :
    r.field "cu_mask".toList val = .ok { r with masks := r.masks ++ [w] } := by
  rw [Reading.field, if_neg (by decide), if_pos rfl, h]
  rfl

theorem field_cuCount (h : readField "cu_count".toList val val = .ok z) :
    r.field "cu_count".toList val = .ok { r with conf := { r.conf with cuCount := z } } := by
  rw [Reading.field, if_neg (by decide), if_neg (by decide), if_pos rfl, h]
  rfl

theorem field_mem (n : Int64) : r.field "mem".toList (printInt n.toInt ++ " MiB".toList) =
    .ok { r with conf := { r.conf with memMib := n } } := by
  have hread : ∀ key val, readField key val (printInt n.toInt) = .ok n.toInt := fun _ _ =>
    readField_printInt n.le_toInt n.toInt_lt
  rw [Reading.field, if_neg (by decide), if_neg (by decide), if_neg (by decide), if_pos rfl, cut_mem]
  simp only [Option.map_some, Option.getD_some, hread]
  rw [← Int64.ofInt_toInt n]
  simp

theorem field_deviceID (h : readField "device_id".toList val val = .ok z) :
    r.field "device_id".toList val = .ok { r with conf := { r.conf with deviceID := z } } := by
  rw [Reading.field, if_neg (by decide), if_neg (by decide), if_neg (by decide), if_neg (by decide),
    if_pos rfl, h]
  rfl

theorem field_vdevID (h : readField "vdev_id".toList val val = .ok z) :
    r.field "vdev_id".toList val = .ok { r with conf := { r.conf with vdevID := z } } := by
  rw [Reading.field, if_neg (by decide), if_neg (by decide), if_neg (by decide), if_neg (by decide),
    if_neg (by decide), if_pos rfl, h]
  rfl

theorem field_pipeID (h : readField "pipe_id".toList val val = .ok z) :
    r.field "pipe_id".toList val = .ok { r with conf := { r.conf with pipeID := z } } := by
  rw [Reading.field, if_neg (by decide), if_neg (by decide), if_neg (by decide), if_neg (by decide),
    if_neg (by decide), if_neg (by decide), if_pos rfl, h]
  rfl

end Field

/-- A line is read, and then the rest. -/
theorem foldlM_line {r r' r'' : Reading} {l : List Char} {ls : List (List Char)}
    (hl : r.line l = .ok r') (hls : ls.foldlM Reading.line r' = .ok r'') :
    (l :: ls).foldlM Reading.line r = .ok r'' := by
  rw [foldlM_cons, hl]
  exact hls

/-- **A record written is read as it was.** -/
theorem parseVdevConf_render (h : c.Sound) : parseVdevConf c.render = .ok c := by
  have hbus := trimmed_of_forall h.solid
  have hvdev : -2 ^ 63 ≤ c.vdevID ∧ c.vdevID < 2 ^ 63 := by
    have := h.vdevID
    simp only [maxVdevID] at this
    omega
  have hpipe : -2 ^ 63 ≤ c.pipeID ∧ c.pipeID < 2 ^ 63 := by
    have := h.pipeID
    simp only [maxPipeID] at this
    omega
  have hread : (c.lines ++ [[]]).foldlM Reading.line Reading.start =
      .ok ⟨{ c with mask := .empty }, [c.mask.lo, c.mask.hi],
        ["enable".toList, "pipe_id".toList, "vdev_id".toList, "device_id".toList, "mem".toList,
          "cu_count".toList, "cu_mask".toList, "cu_mask".toList, "PciBusId".toList]⟩ := by
    refine foldlM_line (line_keyed (by decide +kernel) hbus (.inr (by simp [Reading.start])) rfl) ?_
    refine foldlM_line (line_keyed (by decide +kernel) (trimmed_printWord _) (.inl rfl)
      (field_cuMask (readWord_printWord _ _))) ?_
    refine foldlM_line (line_keyed (by decide +kernel) (trimmed_printWord _) (.inl rfl)
      (field_cuMask (readWord_printWord _ _))) ?_
    refine foldlM_line (line_keyed (by decide +kernel) (trimmed_printInt _) (.inr (by simp [Reading.start]))
      (field_cuCount (readField_printInt h.cuCount.1 h.cuCount.2))) ?_
    refine foldlM_line (line_keyed (by decide +kernel) (trimmed_mem _) (.inr (by simp [Reading.start]))
      (field_mem _)) ?_
    refine foldlM_line (line_keyed (by decide +kernel) (trimmed_printInt _) (.inr (by simp [Reading.start]))
      (field_deviceID (readField_printInt h.deviceID.1 h.deviceID.2))) ?_
    refine foldlM_line (line_keyed (by decide +kernel) (trimmed_printInt _) (.inr (by simp [Reading.start]))
      (field_vdevID (readField_printInt hvdev.1 hvdev.2))) ?_
    refine foldlM_line (line_keyed (by decide +kernel) (trimmed_printInt _) (.inr (by simp [Reading.start]))
      (field_pipeID (readField_printInt hpipe.1 hpipe.2))) ?_
    exact foldlM_line (line_keyed (by decide +kernel) (by decide) (.inr (by simp [Reading.start])) rfl) rfl
  have hfinish : ∀ r : Reading,
      ((Except.ok r : Except ConfError Reading) >>= Reading.finish) = r.finish := fun _ => rfl
  have hv := h.vdevID
  have hp := h.pipeID
  rw [parseVdevConf, VdevConf.render, lines_unlines h.unbroken, hread, hfinish, Reading.finish]
  dsimp only
  rw [if_neg (by simp [h.named]), if_neg (by omega)]

/-! ### Allocation -/

/-- A record file: its text, and whether it can be opened. -/
structure File where
  text : List Char
  readable : Bool
deriving DecidableEq

def File.parse (f : File) : Except ConfError VdevConf :=
  if f.readable then parseVdevConf f.text else .error .unreadable

/-- The record files of the node, by path. -/
abbrev Disk := List (String × File)

/-- Every record of the node but one; a record that cannot be read fails the scan. -/
def scanVdevConfs (disk : Disk) (self : String) : Except ConfError (List VdevConf) :=
  (disk.filter fun file => file.1 != self).mapM fun file => file.2.parse

/-- The PCI bus id of a card: a text without white space. -/
structure BusID where
  text : List Char
  named : text ≠ []
  solid : ∀ ch ∈ text, isSpace ch = false

/-- What a container asks of a card: the path of its record, the percentage of compute, the memory and
the ordinal its record carries. -/
structure Request where
  self : String
  card : BusID
  coresPct : ℤ
  memMib : Int64
  deviceID : ℤ

/-- Why a slice was not allocated. -/
inductive AllocError
  | conf (err : ConfError)
  | zeroUnits (card : List Char) (coresPct : ℤ) (cores : ℕ)
  | pack (err : PackError)
  | badOrdinal (card : List Char) (deviceID : ℤ)
  | pipesExhausted (card : List Char)
  | write (err : String)
deriving DecidableEq

/-- The lowest number below the limit that is not used. -/
def lowestFreeSlot (used : List ℤ) (limit : ℤ) : Option ℤ :=
  ((List.range limit.toNat).map Int.ofNat).find? fun i => !used.contains i

/-- The records of a card. -/
def ofCard (confs : List VdevConf) (card : List Char) : List VdevConf :=
  confs.filter fun c => c.pciBusID == card

/-- The compute units used on a card. -/
def usedCU (confs : List VdevConf) (card : List Char) : CuMask :=
  (ofCard confs card).foldl (fun m c => m.or c.mask) .empty

/-- The pipe ids used on a card. -/
def usedPipe (confs : List VdevConf) (card : List Char) : List ℤ :=
  (ofCard confs card).map VdevConf.pipeID

/-- The next slice of a card, given the other records; its ordinal is the request's own. -/
def deriveVdev (confs : List VdevConf) (cores : ℕ) (q : Request) : Except AllocError VdevConf :=
  let n := sliceCUCount q.coresPct cores
  if n ≤ 0 then .error (.zeroUnits q.card.text q.coresPct cores)
  else match packCUMask (usedCU confs q.card.text) n.toNat cores with
  | .error err => .error (.pack err)
  | .ok mask =>
    if q.deviceID < 0 ∨ maxVdevID ≤ q.deviceID then .error (.badOrdinal q.card.text q.deviceID)
    else match lowestFreeSlot (usedPipe confs q.card.text) maxPipeID with
    | none => .error (.pipesExhausted q.card.text)
    | some pipeID => .ok ⟨q.card.text, mask, mask.count, q.memMib, q.deviceID, q.deviceID, pipeID⟩

/-- The caller's own record, if it is of the card and the ordinal asked for. -/
def ownVdev (disk : Disk) (q : Request) : Option VdevConf :=
  match (disk.lookup q.self).map File.parse with
  | some (.ok c) => if c.pciBusID = q.card.text ∧ c.vdevID = q.deviceID then some c else none
  | _ => none

/-- Put a record in the place of the one that was there. -/
def replaceFile (disk : Disk) (path : String) (text : List Char) : Disk :=
  disk.filter (fun file => file.1 != path) ++ [(path, ⟨text, true⟩)]

/-- How a call ends for its caller; `lost` is a process that stopped. -/
inductive Reply
  | allocated (c : VdevConf)
  | failed (err : AllocError)
  | lost
deriving DecidableEq

/-- **Allocate a slice**, under the lock of the node's allocations. -/
def allocateVdev (cores : ℕ) (w : WriteEnd) (disk : Disk) (q : Request) : Disk × Reply :=
  match ownVdev disk q with
  | some c => (disk, .allocated c)
  | none =>
  match scanVdevConfs disk q.self with
  | .error err => (disk, .failed (.conf err))
  | .ok confs =>
  match deriveVdev confs cores q with
  | .error err => (disk, .failed err)
  | .ok c =>
    let disk' := if w.linked then replaceFile disk q.self c.render else disk
    match w with
    | .published => (disk', .allocated c)
    | .failed err _ => (disk', .failed (.write err))
    | .stopped _ => (disk', .lost)

/-- A call leaves the disk as it was, or writes a record derived from all the others. -/
theorem allocateVdev_cases (cores : ℕ) (w : WriteEnd) (disk : Disk) (q : Request) :
    (allocateVdev cores w disk q).1 = disk ∨
      ∃ confs c, scanVdevConfs disk q.self = .ok confs ∧ deriveVdev confs cores q = .ok c ∧
        (allocateVdev cores w disk q).1 = replaceFile disk q.self c.render := by
  unfold allocateVdev
  split
  · exact .inl rfl
  split
  · exact .inl rfl
  next confs hconfs =>
  split
  · exact .inl rfl
  next c hc =>
  cases w with
  | published => exact .inr ⟨confs, c, hconfs, hc, rfl⟩
  | failed err linked =>
    cases linked with
    | true => exact .inr ⟨confs, c, hconfs, hc, rfl⟩
    | false => exact .inl rfl
  | stopped linked =>
    cases linked with
    | true => exact .inr ⟨confs, c, hconfs, hc, rfl⟩
    | false => exact .inl rfl

/-- A run over a list that succeeds has a result for each member. -/
theorem exists_of_mapM_ok {α β ε : Type} {f : α → Except ε β} {l : List α} {l' : List β}
    (h : l.mapM f = .ok l') {a : α} (ha : a ∈ l) : ∃ b ∈ l', f a = .ok b := by
  induction l generalizing l' with
  | nil => cases ha
  | cons x l ih =>
    rw [mapM_cons] at h
    cases hx : f x with
    | error err =>
      rw [hx] at h
      cases h
    | ok b =>
      cases hl : l.mapM f with
      | error err =>
        rw [hx, hl] at h
        cases h
      | ok bs =>
        rw [hx, hl] at h
        obtain rfl := Except.ok.inj h
        rcases mem_cons.mp ha with rfl | ha
        · exact ⟨b, mem_cons_self, hx⟩
        · obtain ⟨b', hb', hfa⟩ := ih hl ha
          exact ⟨b', .tail _ hb', hfa⟩

/-- What a scan returns is what each of the other files holds. -/
theorem mem_of_scanVdevConfs {disk : Disk} {self : String}
    (h : scanVdevConfs disk self = .ok confs) {file : String × File} (hfile : file ∈ disk)
    (hne : file.1 ≠ self) : ∃ c ∈ confs, file.2.parse = .ok c :=
  exists_of_mapM_ok h (mem_filter.mpr ⟨hfile, by simpa using hne⟩)

/-- The units used on a card are those of all its records. -/
theorem units_subset_usedCU (h : c ∈ confs) :
    c.mask.units ⊆ (usedCU confs c.pciBusID).units := by
  have hfold : ∀ (l : List VdevConf) (m : CuMask), (c ∈ l ∨ c.mask.units ⊆ m.units) →
      c.mask.units ⊆ (l.foldl (fun m c => m.or c.mask) m).units := by
    intro l
    induction l with
    | nil =>
      intro m hm
      exact hm.resolve_left not_mem_nil
    | cons c' l ih =>
      intro m hm
      refine ih _ ?_
      rw [CuMask.units_or]
      rcases hm with hm | hm
      · rcases mem_cons.mp hm with rfl | hm
        · exact .inr Finset.subset_union_right
        · exact .inl hm
      · exact .inr (hm.trans Finset.subset_union_left)
  exact hfold _ _ (.inl (mem_filter.mpr ⟨h, by simp⟩))

theorem lowestFreeSlot_eq_some {used : List ℤ} {limit i : ℤ} (h : lowestFreeSlot used limit = some i) :
    0 ≤ i ∧ i < limit ∧ i ∉ used := by
  have hmem := mem_of_find?_eq_some h
  have hfree := find?_some h
  obtain ⟨n, hn, rfl⟩ := mem_map.mp hmem
  rw [mem_range] at hn
  exact ⟨Int.natCast_nonneg n, by simp only [Int.ofNat_eq_natCast]; omega, by simpa using hfree⟩

theorem count_lt (m : CuMask) : (m.count : ℤ) < 2 ^ 63 := by
  have hcard : m.units.card ≤ (Finset.range (2 * cuWordBits)).card := Finset.card_filter_le _ _
  rw [CuMask.count_eq_card]
  simp only [Finset.card_range, cuWordBits] at hcard
  omega

/-- **What a derived record is**: sound, on its card, and apart from every other record of the card. -/
structure Derived (confs : List VdevConf) (cores : ℕ) (q : Request) (c : VdevConf) : Prop where
  sound : c.Sound
  card : c.pciBusID = q.card.text
  cuCount : c.cuCount = c.mask.count
  within : c.mask.units ⊆ Finset.range cores
  apart : ∀ c' ∈ confs, c'.pciBusID = q.card.text →
    Disjoint c.mask.units c'.mask.units ∧ c.pipeID ≠ c'.pipeID

theorem derived_deriveVdev {cores : ℕ} {q : Request}
    (h : deriveVdev confs cores q = .ok c) : Derived confs cores q c := by
  unfold deriveVdev at h
  dsimp only at h
  split at h
  · cases h
  split at h
  · cases h
  next mask hmask =>
  split at h
  · cases h
  next hordinal =>
  split at h
  · cases h
  next pipeID hpipe =>
  obtain rfl := Except.ok.inj h
  obtain ⟨hwithin, hdisjoint⟩ := units_packCUMask hmask
  obtain ⟨hlo, hhi, hfree⟩ := lowestFreeSlot_eq_some hpipe
  simp only [maxVdevID, not_or, not_lt, not_le] at hordinal
  refine ⟨⟨q.card.named, q.card.solid, ⟨by dsimp only; omega, count_lt mask⟩, ?_, hordinal, hlo, hhi⟩,
    rfl, rfl, hwithin, fun c' hc' hcard => ⟨?_, fun heq => hfree ?_⟩⟩
  · exact ⟨by dsimp only; omega, by dsimp only; omega⟩
  · exact hdisjoint.mono_right (hcard ▸ units_subset_usedCU hc')
  · exact mem_map.mpr ⟨c', mem_filter.mpr ⟨hc', by simp [hcard]⟩, heq.symm⟩

end GpuStack.Hygon
