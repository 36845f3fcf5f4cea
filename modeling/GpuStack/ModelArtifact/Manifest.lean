import GpuStack.Lib.Select
import GpuStack.Lib.Text
import GpuStack.Lib.Utf8

/-!
# ModelArtifact/Manifest — the canonical manifest

`newManifest` sorts a repository's files by path, refuses an invalid entry or a repeated path, and writes a
header and one `<digest> <size> <path>` line for every file.  The digest of that text names a model, so two
manifests must have one text only if they list the same files.

What is accepted is well formed: `validateManifestEntry_eq_none` reads the checks back as `ManifestEntry.Valid`,
and `newManifest_eq_ok` says that exactly the lists of valid entries with distinct paths are accepted.  Of a
valid entry neither the digest nor the size has a space, and nothing in its line ends a line
(`newline_notMem_fields`), whatever the path: so the text determines the entries, and they are one list up to
order (`manifest_identifies`).
-/

namespace GpuStack.ModelArtifact

open List

open Utf8

/-! ### Validation -/

/-- `ManifestEntry` -/
structure ManifestEntry where
  path : GoString
  size : ℤ
  digest : GoString
deriving DecidableEq, Repr

/-- The refusals of `NewManifest`, each wrapping `ErrInvalidManifest` and naming the path. -/
inductive ManifestError where
  /-- `path %q is empty or not valid UTF-8` -/
  | notText (path : GoString)
  /-- `path %q contains a control character` -/
  | control (path : GoString)
  /-- `path %q has an empty, "." or ".." segment` -/
  | segment (path : GoString)
  /-- `path %q has a negative size %d` -/
  | negativeSize (path : GoString) (size : ℤ)
  /-- `path %q has a malformed digest %q` -/
  | malformedDigest (path digest : GoString)
  /-- `duplicate path %q` -/
  | duplicate (path : GoString)
deriving DecidableEq, Repr

/-- `ManifestHeader` -/
def manifestHeader : GoString := ascii "gpustack-manifest v1"

/-- `DigestSHA256` -/
def digestSHA256 : GoString := ascii "sha256"

/-- `DigestGitSHA1` -/
def digestGitSHA1 : GoString := ascii "gitsha1"

/-- `manifestDigestHexLength` -/
def manifestDigestHexLength (algorithm : GoString) : Option ℕ :=
  if algorithm = digestSHA256 then some 64
  else if algorithm = digestGitSHA1 then some 40
  else none

def newline : Byte := byte 10
def space : Byte := byte 32
def dot : Byte := byte 46
def slash : Byte := byte 47
def colon : Byte := byte 58

/-- A byte of `isLowerHex`. -/
def lowerHex (c : Byte) : Bool := (48 ≤ c.val && c.val ≤ 57) || (97 ≤ c.val && c.val ≤ 102)

/-- `isLowerHex` -/
def isLowerHex (s : GoString) : Bool := s.all lowerHex

/-- `validateManifestPath` -/
def validateManifestPath (p : GoString) : Option ManifestError :=
  if p = [] ∨ validString p = false then some (.notText p)
  else if ∃ r ∈ runes p, r < 0x20 ∨ r = 0x7f then some (.control p)
  else if ∃ seg ∈ p.splitOn slash, seg = [] ∨ seg = [dot] ∨ seg = [dot, dot] then some (.segment p)
  else none

/-- The digest check of `validateManifestEntry`: `strings.Cut` at the colon, a known algorithm, and as many
lowercase hexadecimal digits as it has. -/
def wellFormedDigest (digest : GoString) : Bool :=
  let algorithm := digest.takeWhile (· ≠ colon)
  match digest.dropWhile (· ≠ colon), manifestDigestHexLength algorithm with
  | _ :: value, some n => value.length = n && isLowerHex value
  | _, _ => false

/-- `validateManifestEntry` -/
def validateManifestEntry (e : ManifestEntry) : Option ManifestError :=
  match validateManifestPath e.path with
  | some err => some err
  | none =>
    if e.size < 0 then some (.negativeSize e.path e.size)
    else if wellFormedDigest e.digest then none
    else some (.malformedDigest e.path e.digest)

/-- **A file a manifest may list.** -/
structure ManifestEntry.Valid (e : ManifestEntry) : Prop where
  path_ne_nil : e.path ≠ []
  path_utf8 : validString e.path
  path_printable : ∀ r ∈ runes e.path, 0x20 ≤ r ∧ r ≠ 0x7f
  path_relative : ∀ seg ∈ e.path.splitOn slash, seg ≠ [] ∧ seg ≠ [dot] ∧ seg ≠ [dot, dot]
  size_nonneg : 0 ≤ e.size
  digest_known : ∃ algorithm value n, e.digest = algorithm ++ colon :: value ∧
    manifestDigestHexLength algorithm = some n ∧ value.length = n ∧ ∀ c ∈ value, lowerHex c

theorem colon_notMem_of_known {algorithm : GoString} {n : ℕ}
    (h : manifestDigestHexLength algorithm = some n) : ∀ c ∈ algorithm, c ≠ colon ∧ c ≠ space ∧
      c ≠ newline := by
  unfold manifestDigestHexLength at h
  split_ifs at h with h256 hgit
  · rw [h256]
    decide +kernel
  · rw [hgit]
    decide +kernel

theorem wellFormedDigest_iff {digest : GoString} :
    wellFormedDigest digest ↔ ∃ algorithm value n, digest = algorithm ++ colon :: value ∧
      manifestDigestHexLength algorithm = some n ∧ value.length = n ∧ ∀ c ∈ value, lowerHex c := by
  unfold wellFormedDigest
  constructor
  · intro h
    dsimp only at h
    split at h
    next c value n hdrop hknown =>
      have hc : c = colon := by
        have hhead : (digest.dropWhile (· ≠ colon)).head? = some c := by rw [hdrop]; rfl
        have := head?_dropWhile_not (· ≠ colon) digest
        rw [hhead] at this
        simpa using this
      subst hc
      rw [Bool.and_eq_true, decide_eq_true_iff, isLowerHex, all_eq_true] at h
      refine ⟨_, value, n, ?_, hknown, h⟩
      rw [← hdrop, takeWhile_append_dropWhile]
    next => cases h
  · rintro ⟨algorithm, value, n, rfl, hknown, hlength, hhex⟩
    have halg : ∀ c ∈ algorithm, (decide (c ≠ colon)) = true := fun c hc =>
      decide_eq_true (colon_notMem_of_known hknown c hc).1
    have htake : (algorithm ++ colon :: value).takeWhile (· ≠ colon) = algorithm := by
      rw [takeWhile_append_of_pos halg, takeWhile_cons_of_neg (by simp), append_nil]
    have hdrop : (algorithm ++ colon :: value).dropWhile (· ≠ colon) = colon :: value := by
      rw [dropWhile_append_of_pos halg, dropWhile_cons_of_neg (by simp)]
    simp only [htake, hdrop, hknown]
    rw [Bool.and_eq_true, decide_eq_true_iff, isLowerHex, all_eq_true]
    exact ⟨hlength, hhex⟩

/-- **The checks are the description.** -/
theorem validateManifestEntry_eq_none {e : ManifestEntry} :
    validateManifestEntry e = none ↔ e.Valid := by
  have hpath : validateManifestPath e.path = none ↔ e.path ≠ [] ∧ validString e.path ∧
      (∀ r ∈ runes e.path, 0x20 ≤ r ∧ r ≠ 0x7f) ∧
        ∀ seg ∈ e.path.splitOn slash, seg ≠ [] ∧ seg ≠ [dot] ∧ seg ≠ [dot, dot] := by
    unfold validateManifestPath
    split_ifs with htext hcontrol hsegment
    · simp only [false_iff]
      rintro ⟨hne, hvalid, -⟩
      exact htext.elim hne fun h => by rw [hvalid] at h; cases h
    · simp only [false_iff]
      rintro ⟨-, -, hrunes, -⟩
      obtain ⟨r, hr, hbad⟩ := hcontrol
      have := hrunes r hr
      omega
    · simp only [false_iff]
      rintro ⟨-, -, -, hseg⟩
      obtain ⟨seg, hmem, hbad⟩ := hsegment
      have := hseg seg hmem
      tauto
    · push Not at htext hcontrol hsegment
      exact iff_of_true rfl ⟨htext.1, by simpa using htext.2, hcontrol, hsegment⟩
  unfold validateManifestEntry
  constructor
  · intro h
    split at h
    next => cases h
    next hnone =>
      obtain ⟨hne, hutf8, hprint, hrel⟩ := hpath.mp hnone
      split_ifs at h with hsize hdigest
      exact ⟨hne, hutf8, hprint, hrel, not_lt.mp hsize, wellFormedDigest_iff.mp hdigest⟩
  · rintro ⟨hne, hutf8, hprint, hrel, hsize, hdigest⟩
    rw [hpath.mpr ⟨hne, hutf8, hprint, hrel⟩]
    simp only [if_neg (not_lt.mpr hsize), if_pos (wellFormedDigest_iff.mpr hdigest)]

/-! ### The encoding -/

/-- `strconv.FormatInt(i, 10)` -/
def formatInt : ℤ → GoString
  | .ofNat n => (Text.digits 10 n).map fun d => byte (48 + d)
  | .negSucc n => byte 45 :: (Text.digits 10 (n + 1)).map fun d => byte (48 + d)

/-- The line of an entry, up to the byte that ends it. -/
def fields (e : ManifestEntry) : GoString :=
  e.digest ++ space :: (formatInt e.size ++ space :: e.path)

/-- The loop of `NewManifest` over the sorted entries: every line, and the sum of the sizes.  `before` is the
path of the entry before. -/
def encodeEntries : Option GoString → List ManifestEntry → Except ManifestError (GoString × ℤ)
  | _, [] => .ok ([], 0)
  | before, e :: es =>
    match validateManifestEntry e with
    | some err => .error err
    | none =>
      if before = some e.path then .error (.duplicate e.path)
      else
        match encodeEntries (some e.path) es with
        | .error err => .error err
        | .ok (encoded, size) => .ok (fields e ++ newline :: encoded, e.size + size)

/-- `Manifest` -/
structure Manifest where
  encoded : GoString
  digest : GoString
  fileCount : ℕ
  sizeBytes : ℤ
  entries : List ManifestEntry
deriving DecidableEq, Repr

/-- The entries in ascending byte order of the path.  The source's sort is not stable, but entries that share a
path are refused in whichever order it leaves them. -/
def sortEntries (entries : List ManifestEntry) : List ManifestEntry :=
  entries.insertionSort fun a b => a.path ≤ b.path

/-- `NewManifest`; `sum` is `stringx.SumBytesBySHA256`. -/
def newManifest (sum : GoString → GoString) (entries : List ManifestEntry) :
    Except ManifestError Manifest :=
  let sorted := sortEntries entries
  match encodeEntries none sorted with
  | .error err => .error err
  | .ok (lines, size) =>
    let encoded := manifestHeader ++ newline :: lines
    .ok
      { encoded := encoded
        digest := digestSHA256 ++ colon :: sum encoded
        fileCount := sorted.length
        sizeBytes := size
        entries := sorted }

/-! ### What is accepted -/

/-- The lines of the loop. -/
def lines (entries : List ManifestEntry) : GoString := entries.flatMap fun e => fields e ++ [newline]

theorem encodeEntries_eq_ok {before : Option GoString} {entries : List ManifestEntry}
    {out : GoString × ℤ} :
    encodeEntries before entries = .ok out ↔
      (∀ e ∈ entries, e.Valid) ∧ (before.toList ++ entries.map (·.path)).IsChain (· ≠ ·) ∧
        out = (lines entries, (entries.map (·.size)).sum) := by
  induction entries generalizing before out with
  | nil =>
    rw [encodeEntries, Except.ok.injEq, eq_comm]
    cases before <;> simp [lines]
  | cons e es ih =>
    have hchain : (before.toList ++ (e :: es).map (·.path)).IsChain (· ≠ ·) ↔
        before ≠ some e.path ∧ (e.path :: es.map (·.path)).IsChain (· ≠ ·) := by
      cases before <;> simp
    rw [encodeEntries, hchain, forall_mem_cons, ← validateManifestEntry_eq_none]
    split
    next err herr => simp [herr]
    next hvalid =>
      split_ifs with hbefore
      · simp [hbefore]
      · have ih' := fun out => @ih (some e.path) out
        rw [Option.toList_some, singleton_append] at ih'
        split
        next err herr =>
          simp only [reduceCtorEq, false_iff]
          rintro ⟨⟨-, hall⟩, ⟨-, hpaths⟩, -⟩
          rw [(ih' _).mpr ⟨hall, hpaths, rfl⟩] at herr
          cases herr
        next encoded size hok =>
          obtain ⟨hall, hpaths, hout⟩ := (ih' _).mp hok
          obtain ⟨rfl, rfl⟩ := Prod.mk.inj hout
          have hlines : lines (e :: es) = fields e ++ newline :: lines es := by simp [lines]
          rw [Except.ok.injEq, eq_comm, hlines, map_cons, sum_cons]
          exact ⟨fun h => ⟨⟨hvalid, hall⟩, ⟨hbefore, hpaths⟩, h⟩, fun h => h.2.2⟩

/-- In a sorted list, neighbours with distinct paths are enough. -/
theorem isChain_ne_iff_nodup {ps : List GoString} (hsorted : ps.Pairwise (· ≤ ·)) :
    ps.IsChain (· ≠ ·) ↔ ps.Nodup := by
  refine ⟨fun h => ?_, fun h => List.Pairwise.isChain h⟩
  have hlt : ps.IsChain (· < ·) := by
    induction ps with
    | nil => exact .nil
    | cons p ps ih =>
      obtain ⟨hle, hsorted⟩ := pairwise_cons.mp hsorted
      obtain ⟨hne, h⟩ := isChain_cons.mp h
      exact isChain_cons.mpr
        ⟨fun q hq => lt_of_le_of_ne (hle q (mem_of_mem_head? hq)) (hne q hq), ih hsorted h⟩
  exact (isChain_iff_pairwise.mp hlt).imp fun hab => ne_of_lt hab

theorem perm_sortEntries (entries : List ManifestEntry) : (sortEntries entries).Perm entries :=
  perm_insertionSort _ _

theorem pairwise_sortEntries (entries : List ManifestEntry) :
    (sortEntries entries).Pairwise fun a b => a.path ≤ b.path :=
  Select.pairwise_sort (fun _ _ => Iff.rfl) entries

variable {sum : GoString → GoString} {entries : List ManifestEntry}

/-- **What is accepted**, and the text it is given. -/
theorem newManifest_eq_ok :
    (∃ m, newManifest sum entries = .ok m ∧
        m.encoded = manifestHeader ++ newline :: lines (sortEntries entries)) ↔
      (∀ e ∈ entries, e.Valid) ∧ (entries.map (·.path)).Nodup := by
  have hperm := perm_sortEntries entries
  have hsorted := pairwise_map.mpr (pairwise_sortEntries entries)
  have hok := fun out => @encodeEntries_eq_ok none (sortEntries entries) out
  simp only [Option.toList_none, nil_append, isChain_ne_iff_nodup hsorted,
    (hperm.map (·.path)).nodup_iff, hperm.mem_iff] at hok
  constructor
  · rintro ⟨m, hm, -⟩
    simp only [newManifest] at hm
    split at hm
    next => cases hm
    next hrun =>
      obtain ⟨hvalid, hnodup, -⟩ := (hok _).mp hrun
      exact ⟨hvalid, hnodup⟩
  · rintro ⟨hvalid, hnodup⟩
    simp only [newManifest, (hok _).mpr ⟨hvalid, hnodup, rfl⟩]
    exact ⟨_, rfl, rfl⟩

/-! ### What the text determines -/

section Fields

variable {e : ManifestEntry} {c : Byte}

theorem digit_of_mem_formatInt {z : ℤ} (hz : 0 ≤ z) (h : c ∈ formatInt z) :
    48 ≤ c.val ∧ c.val ≤ 57 := by
  obtain ⟨n, rfl⟩ := Int.eq_ofNat_of_zero_le hz
  obtain ⟨d, hd, rfl⟩ := mem_map.mp h
  have hlt := Text.lt_of_mem_digits (by norm_num) hd
  rw [byte, Fin.val_ofNat, Nat.mod_eq_of_lt (by omega)]
  omega

/-- A digest and a size have neither a space nor the byte that ends a line. -/
theorem ne_of_mem_digest (hv : e.Valid) (h : c ∈ e.digest) : c ≠ space ∧ c ≠ newline := by
  obtain ⟨algorithm, value, n, hdigest, hknown, -, hhex⟩ := hv.digest_known
  rw [hdigest] at h
  rcases mem_append.mp h with h | h
  · exact (colon_notMem_of_known hknown c h).2
  · rcases mem_cons.mp h with rfl | h
    · decide
    · have := hhex c h
      constructor <;> rintro rfl <;> revert this <;> decide

theorem ne_of_mem_formatInt (hv : e.Valid) (h : c ∈ formatInt e.size) : c ≠ space ∧ c ≠ newline := by
  have := digit_of_mem_formatInt hv.size_nonneg h
  constructor <;> rintro rfl <;> revert this <;> decide

/-- Nothing in a line ends it: a path with that byte has it as a rune. -/
theorem newline_notMem_fields (hv : e.Valid) : newline ∉ fields e := by
  intro h
  rcases mem_append.mp h with h | h
  · exact (ne_of_mem_digest hv h).2 rfl
  · rcases mem_cons.mp h with h | h
    · revert h
      decide
    · rcases mem_append.mp h with h | h
      · exact (ne_of_mem_formatInt hv h).2 rfl
      · rcases mem_cons.mp h with h | h
        · revert h
          decide
        · have := hv.path_printable _ (mem_runes (by decide) h)
          revert this
          decide

theorem formatInt_injective {z z' : ℤ} (hz : 0 ≤ z) (hz' : 0 ≤ z') (h : formatInt z = formatInt z') :
    z = z' := by
  obtain ⟨n, rfl⟩ := Int.eq_ofNat_of_zero_le hz
  obtain ⟨n', rfl⟩ := Int.eq_ofNat_of_zero_le hz'
  -- the digits are the bytes less forty-eight
  have hdigits : ∀ n : ℕ, (formatInt n).map (fun c => c.val - 48) = Text.digits 10 n := by
    intro n
    change ((Text.digits 10 n).map _).map _ = _
    rw [map_map]
    refine (map_congr_left fun d hd => ?_).trans (map_id _)
    have hlt := Text.lt_of_mem_digits (by norm_num) hd
    rw [Function.comp_apply, byte, Fin.val_ofNat, Nat.mod_eq_of_lt (by omega), Nat.add_sub_cancel_left, id]
  rw [← Text.value_digits 10 n, ← hdigits, h, hdigits, Text.value_digits]

theorem fields_injective {e' : ManifestEntry} (hv : e.Valid) (hv' : e'.Valid)
    (h : fields e = fields e') : e = e' := by
  obtain ⟨hdigest, hrest⟩ := Text.append_cons_inj (fun hc => (ne_of_mem_digest hv hc).1 rfl)
    (fun hc => (ne_of_mem_digest hv' hc).1 rfl) h
  obtain ⟨hsize, hpath⟩ := Text.append_cons_inj (fun hc => (ne_of_mem_formatInt hv hc).1 rfl)
    (fun hc => (ne_of_mem_formatInt hv' hc).1 rfl) hrest
  cases e
  cases e'
  simp only [ManifestEntry.mk.injEq]
  exact ⟨hpath, formatInt_injective hv.size_nonneg hv'.size_nonneg hsize, hdigest⟩

theorem lines_injective {es es' : List ManifestEntry} (hv : ∀ e ∈ es, e.Valid)
    (hv' : ∀ e ∈ es', e.Valid) (h : lines es = lines es') : es = es' := by
  induction es generalizing es' with
  | nil =>
    cases es' with
    | nil => rfl
    | cons e' es' => simp [lines] at h
  | cons e es ih =>
    cases es' with
    | nil => simp [lines] at h
    | cons e' es' =>
      obtain ⟨he, hes⟩ := forall_mem_cons.mp hv
      obtain ⟨he', hes'⟩ := forall_mem_cons.mp hv'
      simp only [lines, flatMap_cons, append_assoc, singleton_append] at h
      obtain ⟨hfields, hrest⟩ := Text.append_cons_inj (newline_notMem_fields he)
        (newline_notMem_fields he') h
      rw [fields_injective he he' hfields, ih hes hes' hrest]

end Fields

/-- Two lists of the same files with distinct paths are sorted into one. -/
theorem sortEntries_eq_of_perm {es es' : List ManifestEntry} (hnodup : (es.map (·.path)).Nodup)
    (h : es.Perm es') : sortEntries es = sortEntries es' :=
  Select.sort_eq_of_perm (fun _ _ => Iff.rfl) (inj_on_of_nodup_map hnodup) h

/-- **The canonical manifest identifies its contents.** -/
theorem manifest_identifies (sum : GoString → GoString) :
    (∀ entries, (∃ m, newManifest sum entries = .ok m) ↔
      (∀ e ∈ entries, e.Valid) ∧ (entries.map (·.path)).Nodup) ∧
    ∀ es es' m m', newManifest sum es = .ok m → newManifest sum es' = .ok m' →
      (m.encoded = m'.encoded ↔ es.Perm es') := by
  have haccept : ∀ entries m, newManifest sum entries = .ok m →
      ((∀ e ∈ entries, e.Valid) ∧ (entries.map (·.path)).Nodup) ∧
        m.encoded = manifestHeader ++ newline :: lines (sortEntries entries) := by
    intro entries m hm
    have hencoded : m.encoded = manifestHeader ++ newline :: lines (sortEntries entries) := by
      unfold newManifest at hm
      dsimp only at hm
      split at hm
      next => cases hm
      next out size hrun =>
        obtain ⟨-, -, hout⟩ := encodeEntries_eq_ok.mp hrun
        obtain ⟨rfl, -⟩ := Prod.mk.inj hout
        rw [← Except.ok.inj hm]
    exact ⟨newManifest_eq_ok.mp ⟨m, hm, hencoded⟩, hencoded⟩
  refine ⟨fun entries => ⟨fun ⟨m, hm⟩ => (haccept entries m hm).1, fun h => ?_⟩, ?_⟩
  · obtain ⟨m, hm, -⟩ := newManifest_eq_ok.mpr h
    exact ⟨m, hm⟩
  · intro es es' m m' hm hm'
    obtain ⟨⟨hvalid, hnodup⟩, henc⟩ := haccept es m hm
    obtain ⟨⟨hvalid', -⟩, henc'⟩ := haccept es' m' hm'
    rw [henc, henc', append_cancel_left_eq, cons.injEq]
    refine ⟨fun h => ?_, fun h => ⟨rfl, by rw [sortEntries_eq_of_perm hnodup h]⟩⟩
    have heq : sortEntries es = sortEntries es' := lines_injective
      (fun e he => hvalid e ((perm_sortEntries es).mem_iff.mp he))
      (fun e he => hvalid' e ((perm_sortEntries es').mem_iff.mp he)) h.2
    exact (perm_sortEntries es).symm.trans (heq ▸ perm_sortEntries es')

end GpuStack.ModelArtifact
