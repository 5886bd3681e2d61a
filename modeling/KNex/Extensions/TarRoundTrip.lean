import KNex.Extensions.TarHeaders

/-!
# What archives keep of their files

`archive_iff`: what was written is read back with its paths exactly when each path can be written as
UTF-8 and is not cut, and whatever archive is read, its paths have no NUL exactly when no path field
has a NUL that a line terminator follows. Everything else that is asked of an extraction holds of
every archive.

No check looks at NULs: a path with a NUL is written, and is read back up to the NUL; with a line
terminator behind it, it is not cut at all.
-/
namespace KNex.Extensions.Tar

open KNex.Core KNex.Core.JsonText KNex.Core.TextCoding

/-! ## Checks -/

/-- What `safePath` lets through. -/
structure Safe (maxPathDepth : Option Nat) (path : Str) : Prop where
  nonempty : path ≠ []
  short : path.length ≤ 256
  relative : path.head? ≠ some 47
  noBackslash : 92 ∉ path
  depth : ∀ limit, maxPathDepth = some limit → (path.splitOn 47).length ≤ limit
  segments : ∀ segment ∈ path.splitOn 47,
    segment ≠ [] ∧ segment ≠ units "." ∧ segment ≠ units ".."

theorem safePath_eq_ok {path result : Str} {maxPathDepth : Option Nat} :
    safePath path maxPathDepth = .ok result ↔ result = path ∧ Safe maxPathDepth path := by
  have hdepth : depthExceeds (path.splitOn 47).length maxPathDepth = false ↔
      ∀ limit, maxPathDepth = some limit → (path.splitOn 47).length ≤ limit := by
    cases maxPathDepth <;> simp [depthExceeds]
  have hsegments : (path.splitOn 47).any unsafeSegment = false ↔ ∀ segment ∈ path.splitOn 47,
      segment ≠ [] ∧ segment ≠ units "." ∧ segment ≠ units ".." := by
    simp only [List.any_eq_false, unsafeSegment, Bool.or_eq_true, decide_eq_true_eq, not_or,
      and_assoc, ne_eq]
  unfold safePath
  dsimp only
  simp only [bind_eq_ok, failWhen_eq_ok, not_or, Bool.not_eq_true, hdepth, hsegments, Nat.not_lt]
  constructor
  · rintro ⟨_, ⟨h1, h2, h3, h4, h5, h6⟩, h⟩
    cases h
    exact ⟨rfl, h1, h2, h3, h4, h5, h6⟩
  · rintro ⟨h, h1, h2, h3, h4, h5, h6⟩
    exact ⟨(), ⟨h1, h2, h3, h4, h5, h6⟩, congrArg Except.ok h.symm⟩

/-- What a round asks of the bytes at its offset. -/
structure Readable (host : Host) (limits : ExtractionLimits) (tar : List UInt8) (offset : Nat)
    (extracted : Extracted) (path : Str) (size : Nat) : Prop where
  magic : ascii (subarray (subarray tar offset (offset + 512)) 257 263) = units "ustar" ++ [0]
  zeros : ∀ byte ∈ subarray (subarray tar offset (offset + 512)) 345 500, byte = 0
  checksum : checksum (subarray tar offset (offset + 512)) = .ok ()
  pathField : path = cutNul (host.utf8 (subarray (subarray tar offset (offset + 512)) 0 100))
  safe : Safe (some limits.maxPathDepth) path
  type : (subarray tar offset (offset + 512)).getD 156 0 = 0 ∨
    (subarray tar offset (offset + 512)).getD 156 0 = 0x30
  sizeField : octal (subarray (subarray tar offset (offset + 512)) 124 136) = .ok size
  fileBytes : size ≤ limits.maxFileBytes
  files : extracted.files.size < limits.maxFiles
  total : extracted.total + size ≤ limits.maxTotalBytes
  body : offset + 512 + size ≤ tar.length
  new : path ∉ extracted.files.keys
  newCase : casePath host path ∉ extracted.casePaths

theorem readEntry_eq_ok {host : Host} {limits : ExtractionLimits} {tar : List UInt8} {offset : Nat}
    {extracted : Extracted} {path : Str} {size : Nat} :
    readEntry host limits tar offset extracted = .ok (path, size) ↔
      Readable host limits tar offset extracted path size := by
  unfold readEntry
  dsimp only
  simp only [bind_eq_ok, failWhen_eq_ok, safePath_eq_ok]
  constructor
  · rintro ⟨_, h1, _, h2, _, h3, p, ⟨h4, h5⟩, _, h6, n, h7, _, h8, _, h9, _, h10, _, h11, _, h12, _,
      h13, h⟩
    cases h
    refine ⟨of_not_not h1, ?_, h3, h4, h4 ▸ h5, ?_, h7, by omega, by omega, by omega, by omega, h12,
      h13⟩
    · simpa using h2
    · exact (not_and_or.mp h6).imp of_not_not of_not_not
  · intro h
    refine ⟨(), not_not.mpr h.magic, (), ?_, (), h.checksum, path, ⟨h.pathField, h.pathField ▸ h.safe⟩, (), ?_,
      size, h.sizeField, (), Nat.not_lt.mpr h.fileBytes, (), Nat.not_le.mpr h.files, (),
      Nat.not_lt.mpr h.total, (), Nat.not_lt.mpr h.body, (), h.new, (), h.newCase, rfl⟩
    · simpa using h.zeros
    · exact not_and_or.mpr (h.type.imp not_not.mpr not_not.mpr)

/-! ## Every archive -/

/-- The texts of the path fields where the loop finds headers. -/
def pathFields (host : Host) (tar : List UInt8) (offset : Nat) : List Str :=
  if offset < tar.length then
    if (subarray tar offset (offset + 512)).all (· = 0) then []
    else match octal (subarray (subarray tar offset (offset + 512)) 124 136) with
      | .error _ => []
      | .ok size =>
        host.utf8 (subarray (subarray tar offset (offset + 512)) 0 100) ::
          pathFields host tar (offset + 512 + size + padding size)
  else []
termination_by tar.length - offset

/-- What rounds keep of what was read. -/
structure Kept (host : Host) (limits : ExtractionLimits) (extracted : Extracted) : Prop where
  safe : ∀ path ∈ extracted.files.keys, Safe (some limits.maxPathDepth) path
  casePaths : extracted.casePaths.reverse = extracted.files.keys.map (casePath host)
  distinct : extracted.casePaths.Nodup
  fileBytes : ∀ entry ∈ extracted.files.entries, entry.2.length ≤ limits.maxFileBytes
  files : extracted.files.size ≤ limits.maxFiles
  total : (extracted.files.entries.map fun entry => entry.2.length).sum = extracted.total
  totalBytes : extracted.total ≤ limits.maxTotalBytes

theorem Kept.start (host : Host) (limits : ExtractionLimits) :
    Kept host limits ⟨0, .empty, []⟩ where
  safe _ h := absurd h List.not_mem_nil
  casePaths := rfl
  distinct := List.nodup_nil
  fileBytes _ h := absurd h List.not_mem_nil
  files := Nat.zero_le _
  total := rfl
  totalBytes := Nat.zero_le _

theorem Kept.add {host : Host} {limits : ExtractionLimits} {tar : List UInt8} {offset : Nat}
    {extracted : Extracted} {path : Str} {size : Nat} (h : Kept host limits extracted)
    (hread : Readable host limits tar offset extracted path size) :
    Kept host limits (extracted.add host path size
      (subarray tar (offset + 512) (offset + 512 + size))) := by
  have hnone := JsMap.get?_eq_none.mpr hread.new
  have hlen : (subarray tar (offset + 512) (offset + 512 + size)).length = size := by
    rw [length_subarray hread.body, Nat.add_sub_cancel_left]
  constructor
  · intro p hp
    rcases JsMap.mem_keys_set.mp hp with rfl | hp
    · exact hread.safe
    · exact h.safe p hp
  · show (casePath host path :: extracted.casePaths).reverse = _
    rw [List.reverse_cons, h.casePaths]
    unfold Extracted.add
    rw [JsMap.keys_set_of_none hnone, List.map_append]
    rfl
  · exact List.nodup_cons.mpr ⟨hread.newCase, h.distinct⟩
  · intro entry hentry
    unfold Extracted.add at hentry
    rw [JsMap.entries_set_of_none hnone, List.mem_append, List.mem_singleton] at hentry
    rcases hentry with hentry | rfl
    · exact h.fileBytes entry hentry
    · have hfits := hread.fileBytes
      dsimp only
      omega
  · have hfiles := hread.files
    unfold Extracted.add
    rw [JsMap.size_set_of_none hnone]
    omega
  · unfold Extracted.add
    rw [JsMap.entries_set_of_none hnone, List.map_append, List.sum_append, h.total]
    show extracted.total + (List.length _ + 0) = _
    rw [hlen]
    rfl
  · exact hread.total

/-- What a round reads is the path field it finds, cut. -/
theorem pathFields_of_readable {host : Host} {limits : ExtractionLimits} {tar : List UInt8}
    {offset : Nat} {extracted : Extracted} {path : Str} {size : Nat} (hoffset : offset < tar.length)
    (hblock : ¬ (subarray tar offset (offset + 512)).all (· = 0) = true)
    (hread : Readable host limits tar offset extracted path size) :
    (pathFields host tar offset).map cutNul =
      path :: (pathFields host tar (offset + 512 + size + padding size)).map cutNul := by
  rw [pathFields, if_pos hoffset, if_neg hblock, hread.sizeField]
  dsimp only
  rw [List.map_cons, ← hread.pathField]

theorem extractLoop_kept {host : Host} {limits : ExtractionLimits} {tar : List UInt8}
    {result : Extracted} (offset : Nat) (extracted : Extracted)
    (hloop : extractLoop host limits tar offset extracted = .ok result)
    (h : Kept host limits extracted) :
    Kept host limits result ∧
      result.files.keys = extracted.files.keys ++ (pathFields host tar offset).map cutNul := by
  induction offset, extracted using extractLoop.induct host limits tar with
  | case1 offset extracted hoffset htruncated =>
    rw [extractLoop, if_pos hoffset, if_pos htruncated] at hloop
    cases hloop
  | case2 offset extracted hoffset htruncated hzero hdata =>
    rw [extractLoop, if_pos hoffset, if_neg htruncated, if_pos hzero, if_pos hdata] at hloop
    cases hloop
  | case3 offset extracted hoffset htruncated hzero hdata =>
    rw [extractLoop, if_pos hoffset, if_neg htruncated, if_pos hzero, if_neg hdata] at hloop
    cases hloop
    rw [pathFields, if_pos hoffset, if_pos hzero]
    exact ⟨h, (List.append_nil _).symm⟩
  | case4 offset extracted hoffset htruncated hzero message hread =>
    rw [extractLoop, if_pos hoffset, if_neg htruncated, if_neg hzero, hread] at hloop
    cases hloop
  | case5 offset extracted hoffset htruncated hzero path size hread bodyStart bytes ih =>
    rw [extractLoop, if_pos hoffset, if_neg htruncated, if_neg hzero, hread] at hloop
    rw [readEntry_eq_ok] at hread
    obtain ⟨hkept, hkeys⟩ := ih hloop (h.add hread)
    refine ⟨hkept, ?_⟩
    have hadd : (extracted.add host path size bytes).files.keys = extracted.files.keys ++ [path] :=
      JsMap.keys_set_of_none (JsMap.get?_eq_none.mpr hread.new) _
    rw [hkeys, hadd, List.append_assoc, pathFields_of_readable hoffset hzero hread]
    rfl
  | case6 offset extracted hoffset =>
    rw [extractLoop, if_neg hoffset] at hloop
    cases hloop
    rw [pathFields, if_neg hoffset]
    exact ⟨h, (List.append_nil _).symm⟩

/-! ## Written archives -/

theorem utf8_field {host : Host} (hutf8 : ∀ s, wellFormed s = true → host.utf8 (encode s) = s)
    {path : Str} (hpath : wellFormed path = true) (n : Nat) :
    host.utf8 (encode path ++ List.replicate n 0) = path ++ List.replicate n 0 := by
  have hascii : ∀ c ∈ List.replicate n (0 : UInt16), c.toNat < 128 := by
    intro c hc
    rw [List.eq_of_mem_replicate hc]
    decide
  have htrail : startsTrail (List.replicate n 0) = false := by
    cases n <;> rfl
  obtain ⟨hzeros, hwell⟩ := encode_ascii hascii
  rw [List.map_replicate] at hzeros
  have hwell' : wellFormed (path ++ List.replicate n 0) = true := by
    rw [(scalars_append htrail path).2, hpath, hwell]
    rfl
  rw [← hutf8 _ hwell', encode_append htrail, hzeros]
  rfl

theorem chunk_eq_ok {entry : ArchiveEntry} {bytes : List UInt8} (h : chunk entry = .ok bytes) :
    ∃ header, HeaderOf entry.path entry.bytes.length header ∧
      bytes = header ++ entry.bytes ++ List.replicate (padding entry.bytes.length) 0 := by
  unfold chunk at h
  obtain ⟨header, hheader, h⟩ := bind_eq_ok.mp h
  cases h
  exact ⟨header, header_eq_ok hheader, rfl⟩

/-- What a reader may be asked to read of an entry that was written. -/
structure Fits (host : Host) (limits : ExtractionLimits) (extracted : Extracted)
    (entries : List ArchiveEntry) : Prop where
  safe : ∀ entry ∈ entries, Safe (some limits.maxPathDepth) entry.path
  encodable : ∀ entry ∈ entries, wellFormed entry.path = true
  uncut : ∀ entry ∈ entries, NoFinalNul entry.path
  fileBytes : ∀ entry ∈ entries, entry.bytes.length ≤ limits.maxFileBytes
  files : extracted.files.size + entries.length ≤ limits.maxFiles
  totalBytes : extracted.total + (entries.map fun entry => entry.bytes.length).sum ≤
    limits.maxTotalBytes
  distinct : (extracted.files.keys ++ entries.map ArchiveEntry.path).Nodup
  distinctCase : (extracted.casePaths ++ entries.map fun entry => casePath host entry.path).Nodup

theorem Fits.readable {host : Host} {limits : ExtractionLimits} {extracted : Extracted}
    {entry : ArchiveEntry} {entries : List ArchiveEntry} {before header rest : List UInt8}
    (h : Fits host limits extracted (entry :: entries))
    (hutf8 : ∀ s, wellFormed s = true → host.utf8 (encode s) = s)
    (hheader : HeaderOf entry.path entry.bytes.length header) :
    Readable host limits (before ++ header ++ (entry.bytes ++ rest)) before.length extracted
      entry.path entry.bytes.length := by
  have hblock := subarray_append_middle before header (entry.bytes ++ rest)
  rw [hheader.length] at hblock
  have hfiles := h.files
  have htotal := h.totalBytes
  have hdistinct := List.nodup_append.mp h.distinct
  have hdistinctCase := List.nodup_append.mp h.distinctCase
  rw [List.map_cons, List.sum_cons] at htotal
  rw [List.length_cons] at hfiles
  constructor
  · rw [hblock, hheader.magic]
    decide
  · rw [hblock, hheader.zeros]
    exact fun byte => List.eq_of_mem_replicate
  · rw [hblock]
    exact hheader.checksum
  · rw [hblock, hheader.path, utf8_field hutf8 (h.encodable entry List.mem_cons_self),
      cutNul_append_zeros _ (h.uncut entry List.mem_cons_self)]
  · exact h.safe entry List.mem_cons_self
  · rw [hblock]
    exact .inr hheader.type
  · rw [hblock, hheader.size]
    have hfits := hheader.sizeFits
    exact octal_field (by omega) (List.all_iff_forall_prop.mp (by decide))
  · exact h.fileBytes entry List.mem_cons_self
  · omega
  · omega
  · simp only [List.length_append, hheader.length]
    omega
  · exact fun hmem => hdistinct.2.2 _ hmem _ List.mem_cons_self rfl
  · exact fun hmem => hdistinctCase.2.2 _ hmem _ List.mem_cons_self rfl

theorem Fits.add {host : Host} {limits : ExtractionLimits} {extracted : Extracted}
    {entry : ArchiveEntry} {entries : List ArchiveEntry}
    (h : Fits host limits extracted (entry :: entries)) :
    Fits host limits (extracted.add host entry.path entry.bytes.length entry.bytes) entries := by
  have hdistinct := List.nodup_append.mp h.distinct
  have hnone : extracted.files.get? entry.path = none := JsMap.get?_eq_none.mpr fun hmem =>
    hdistinct.2.2 _ hmem _ List.mem_cons_self rfl
  have hfiles := h.files
  have htotal := h.totalBytes
  rw [List.map_cons, List.sum_cons] at htotal
  rw [List.length_cons] at hfiles
  constructor
  · exact fun e he => h.safe e (List.mem_cons_of_mem entry he)
  · exact fun e he => h.encodable e (List.mem_cons_of_mem entry he)
  · exact fun e he => h.uncut e (List.mem_cons_of_mem entry he)
  · exact fun e he => h.fileBytes e (List.mem_cons_of_mem entry he)
  · unfold Extracted.add
    rw [JsMap.size_set_of_none hnone]
    omega
  · unfold Extracted.add
    dsimp only
    omega
  · unfold Extracted.add
    rw [JsMap.keys_set_of_none hnone, List.append_assoc]
    exact h.distinct
  · exact List.perm_middle.nodup h.distinctCase

theorem extractLoop_terminator {host : Host} {limits : ExtractionLimits} {extracted : Extracted}
    (before : List UInt8) :
    extractLoop host limits (before ++ List.replicate 1024 0) before.length extracted =
      .ok extracted := by
  have hblock : subarray (before ++ List.replicate 1024 0) before.length (before.length + 512) =
      List.replicate 512 0 := by
    unfold subarray
    rw [List.drop_left, List.take_replicate, Nat.add_sub_cancel_left]
    rfl
  have hlen : (before ++ List.replicate 1024 (0 : UInt8)).length = before.length + 1024 := by
    rw [List.length_append, List.length_replicate]
  rw [extractLoop, if_pos (by omega), if_neg (by omega), hblock, if_pos, if_neg]
  · rw [List.drop_left, List.any_replicate]
    decide
  · rw [List.all_replicate]
    decide

theorem HeaderOf.not_zero {path : Str} {size : Nat} {header : List UInt8}
    (h : HeaderOf path size header) : ¬ header.all (· = 0) = true := by
  intro hall
  have htype := h.type
  have hlen := h.length
  rw [List.getD_eq_getElem?_getD, List.getElem?_eq_getElem (by omega), Option.getD_some] at htype
  have hbyte := List.all_eq_true.mp hall _ (List.getElem_mem (by omega : 156 < header.length))
  rw [htype] at hbyte
  exact absurd hbyte (by decide)

/-- A round reads the entry whose chunk begins at its offset. -/
theorem extractLoop_chunk {host : Host} {limits : ExtractionLimits} {extracted : Extracted}
    {entry : ArchiveEntry} {entries : List ArchiveEntry} {bytes : List UInt8}
    (hutf8 : ∀ s, wellFormed s = true → host.utf8 (encode s) = s)
    (h : Fits host limits extracted (entry :: entries)) (hbytes : chunk entry = .ok bytes)
    (before rest : List UInt8) :
    extractLoop host limits (before ++ bytes ++ rest) before.length extracted =
      extractLoop host limits (before ++ bytes ++ rest) (before ++ bytes).length
        (extracted.add host entry.path entry.bytes.length entry.bytes) := by
  obtain ⟨header, hheader, rfl⟩ := chunk_eq_ok hbytes
  have hlen := hheader.length
  have htar : before ++ (header ++ entry.bytes ++ List.replicate (padding entry.bytes.length) 0) ++
      rest = before ++ header ++ (entry.bytes ++
        (List.replicate (padding entry.bytes.length) 0 ++ rest)) := by
    simp only [List.append_assoc]
  have hnext : (before ++ (header ++ entry.bytes ++
      List.replicate (padding entry.bytes.length) 0)).length =
        before.length + 512 + entry.bytes.length + padding entry.bytes.length := by
    simp only [List.length_append, List.length_replicate, hlen]
    omega
  have hblock := subarray_append_middle before header
    (entry.bytes ++ (List.replicate (padding entry.bytes.length) 0 ++ rest))
  have hbody := subarray_append_middle (before ++ header) entry.bytes
    (List.replicate (padding entry.bytes.length) 0 ++ rest)
  rw [hlen] at hblock
  rw [List.length_append, hlen, List.append_assoc (before ++ header)] at hbody
  rw [hnext, htar, extractLoop, if_pos, if_neg, hblock, if_neg hheader.not_zero,
    readEntry_eq_ok.mpr (h.readable hutf8 hheader)]
  · dsimp only
    rw [hbody]
  · simp only [List.length_append, hlen]
    omega
  · simp only [List.length_append, hlen]
    omega

theorem extractLoop_written {host : Host} {limits : ExtractionLimits}
    (hutf8 : ∀ s, wellFormed s = true → host.utf8 (encode s) = s) :
    ∀ {entries : List ArchiveEntry} {chunks : List (List UInt8)} {extracted : Extracted},
      entries.mapM chunk = .ok chunks → Fits host limits extracted entries → ∀ before,
      ∃ result, extractLoop host limits (before ++ (chunks.flatten ++ List.replicate 1024 0))
          before.length extracted = .ok result ∧
        result.files.entries =
          extracted.files.entries ++ entries.map fun entry => (entry.path, entry.bytes)
  | [], chunks, extracted, hchunks, _, before => by
    cases hchunks
    exact ⟨extracted, extractLoop_terminator before, (List.append_nil _).symm⟩
  | entry :: entries, chunks, extracted, hchunks, h, before => by
    rw [List.mapM_cons] at hchunks
    obtain ⟨bytes, hbytes, hchunks⟩ := bind_eq_ok.mp hchunks
    obtain ⟨rest, hrest, hchunks⟩ := bind_eq_ok.mp hchunks
    cases hchunks
    have hnone : extracted.files.get? entry.path = none := JsMap.get?_eq_none.mpr fun hmem =>
      (List.nodup_append.mp h.distinct).2.2 _ hmem _ List.mem_cons_self rfl
    obtain ⟨result, hloop, hfiles⟩ := extractLoop_written hutf8 hrest h.add (before ++ bytes)
    refine ⟨result, ?_, ?_⟩
    · rw [List.flatten_cons, List.append_assoc bytes, ← List.append_assoc before,
        extractLoop_chunk hutf8 h hbytes]
      exact hloop
    · have hadd : (extracted.add host entry.path entry.bytes.length entry.bytes).files.entries =
          extracted.files.entries ++ [(entry.path, entry.bytes)] :=
        JsMap.entries_set_of_none hnone _
      rw [hfiles, hadd, List.append_assoc]
      rfl

/-! ## Whole archives -/

theorem createNormalizedTarGz_eq_ok {host : Host} {entries : List ArchiveEntry}
    {archive : List UInt8} (h : createNormalizedTarGz host entries = .ok archive) :
    ∃ (sorted : List ArchiveEntry) (chunks : List (List UInt8)), sorted.Perm entries ∧
      (∀ entry ∈ entries, Safe none entry.path) ∧
      (sorted.map ArchiveEntry.path).Nodup ∧
      (sorted.map fun entry => casePath host entry.path).Nodup ∧ sorted.mapM chunk = .ok chunks ∧
      host.gzipSync (chunks.flatten ++ List.replicate 1024 0) = archive := by
  unfold createNormalizedTarGz at h
  simp only [bind_eq_ok, failIf_eq_ok, not_not] at h
  obtain ⟨safe, hsafe, _, hnodup, _, hcase, chunks, hchunks, h⟩ := h
  rw [mapM_eq_ok_of_check] at hsafe
  · obtain ⟨rfl, hsafe⟩ := hsafe
    refine ⟨_, chunks, List.mergeSort_perm _ _, fun entry hentry => ?_, hnodup, hcase, hchunks,
      Except.ok.inj h⟩
    obtain ⟨path, hpath, -⟩ := bind_eq_ok.mp (hsafe entry hentry)
    exact (safePath_eq_ok.mp hpath).2
  · intro entry result hresult
    obtain ⟨path, hpath, hresult⟩ := bind_eq_ok.mp hresult
    obtain ⟨rfl, -⟩ := safePath_eq_ok.mp hpath
    exact (Except.ok.inj hresult).symm

theorem extractNormalizedTarGz_eq_ok {host : Host} {archive : List UInt8}
    {limits : ExtractionLimits} {files : JsMap Str (List UInt8)} :
    extractNormalizedTarGz host archive limits = .ok files ↔
      archive.length ≤ limits.maxCompressedBytes ∧ ∃ tar extracted,
        host.gunzipSync archive (limits.maxTotalBytes + limits.maxFiles * 1024 + 1024) = some tar ∧
        extractLoop host limits tar 0 ⟨0, .empty, []⟩ = .ok extracted ∧
        extracted.files.size ≠ 0 ∧ extracted.files = files := by
  unfold extractNormalizedTarGz
  cases htar : host.gunzipSync archive (limits.maxTotalBytes + limits.maxFiles * 1024 + 1024) with
  | none => simp [bind_eq_ok, fail]
  | some tar =>
    simp only [bind_eq_ok, failWhen_eq_ok, Nat.not_lt]
    constructor
    · rintro ⟨_, hlen, extracted, hloop, _, hsize, h⟩
      exact ⟨hlen, tar, extracted, rfl, hloop, hsize, Except.ok.inj h⟩
    · rintro ⟨hlen, _, extracted, htar, hloop, hsize, h⟩
      cases htar
      exact ⟨(), hlen, extracted, hloop, (), hsize, congrArg Except.ok h⟩

/-- What every extraction keeps to. -/
structure Lawful (host : Host) (limits : ExtractionLimits) (files : JsMap Str (List UInt8)) :
    Prop where
  nonempty : files.size ≠ 0
  safe : ∀ path ∈ files.keys, Safe (some limits.maxPathDepth) path
  distinct : (files.keys.map (casePath host)).Nodup
  fileBytes : ∀ entry ∈ files.entries, entry.2.length ≤ limits.maxFileBytes
  count : files.size ≤ limits.maxFiles
  totalBytes : (files.entries.map fun entry => entry.2.length).sum ≤ limits.maxTotalBytes

theorem extract_lawful {host : Host} {archive : List UInt8} {limits : ExtractionLimits}
    {files : JsMap Str (List UInt8)}
    (h : extractNormalizedTarGz host archive limits = .ok files) :
    Lawful host limits files ∧ ∃ tar,
      host.gunzipSync archive (limits.maxTotalBytes + limits.maxFiles * 1024 + 1024) = some tar ∧
      files.keys = (pathFields host tar 0).map cutNul := by
  obtain ⟨-, tar, extracted, htar, hloop, hsize, rfl⟩ := extractNormalizedTarGz_eq_ok.mp h
  obtain ⟨hkept, hkeys⟩ := extractLoop_kept 0 _ hloop (Kept.start host limits)
  refine ⟨⟨hsize, hkept.safe, ?_, hkept.fileBytes, hkept.files, ?_⟩, tar, htar, hkeys⟩
  · rw [← hkept.casePaths]
    exact List.nodup_reverse.mpr hkept.distinct
  · rw [hkept.total]
    exact hkept.totalBytes

/-- What a caller asks of the entries besides that they are written. -/
structure WithinLimits (limits : ExtractionLimits) (entries : List ArchiveEntry)
    (archive : List UInt8) : Prop where
  compressed : archive.length ≤ limits.maxCompressedBytes
  files : entries.length ≤ limits.maxFiles
  fileBytes : ∀ entry ∈ entries, entry.bytes.length ≤ limits.maxFileBytes
  totalBytes : (entries.map fun entry => entry.bytes.length).sum ≤ limits.maxTotalBytes
  depth : ∀ entry ∈ entries, (entry.path.splitOn 47).length ≤ limits.maxPathDepth

/-- The extraction returns exactly the entries. -/
def Returned (host : Host) (limits : ExtractionLimits) (entries : List ArchiveEntry)
    (archive : List UInt8) : Prop :=
  ∃ files, extractNormalizedTarGz host archive limits = .ok files ∧
    files.entries.Perm (entries.map fun entry => (entry.path, entry.bytes))

theorem length_chunks : ∀ {entries : List ArchiveEntry} {chunks : List (List UInt8)},
    entries.mapM chunk = .ok chunks → chunks.flatten.length ≤
      (entries.map fun entry => entry.bytes.length).sum + entries.length * 1024
  | [], chunks, h => by
    cases h
    exact Nat.zero_le _
  | entry :: entries, chunks, h => by
    rw [List.mapM_cons] at h
    obtain ⟨bytes, hbytes, h⟩ := bind_eq_ok.mp h
    obtain ⟨rest, hrest, h⟩ := bind_eq_ok.mp h
    cases h
    obtain ⟨header, hheader, rfl⟩ := chunk_eq_ok hbytes
    have hlen := length_chunks hrest
    have hpad : padding entry.bytes.length < 512 := Nat.mod_lt _ (by omega)
    simp only [List.flatten_cons, List.length_append, List.length_replicate, hheader.length,
      List.map_cons, List.sum_cons, List.length_cons]
    omega

section
variable {host : Host} {limits : ExtractionLimits} {entries : List ArchiveEntry}
  {archive : List UInt8}

theorem returned_of_uncut
    (hgzip : ∀ bytes n, bytes.length ≤ n → host.gunzipSync (host.gzipSync bytes) n = some bytes)
    (hutf8 : ∀ s, wellFormed s = true → host.utf8 (encode s) = s) (hnonempty : entries ≠ [])
    (hcreate : createNormalizedTarGz host entries = .ok archive)
    (hlimits : WithinLimits limits entries archive)
    (hpaths : ∀ entry ∈ entries, wellFormed entry.path = true ∧ NoFinalNul entry.path) :
    Returned host limits entries archive := by
  obtain ⟨sorted, chunks, hperm, hsafe, hnodup, hcase, hchunks, rfl⟩ :=
    createNormalizedTarGz_eq_ok hcreate
  have hsum := (hperm.map fun entry => entry.bytes.length).sum_nat
  have hlen := hperm.length_eq
  have hfiles := hlimits.files
  have htotal := hlimits.totalBytes
  have hfits : Fits host limits ⟨0, .empty, []⟩ sorted := by
    refine ⟨fun entry he => ?_, fun entry he => (hpaths entry (hperm.mem_iff.mp he)).1,
      fun entry he => (hpaths entry (hperm.mem_iff.mp he)).2,
      fun entry he => hlimits.fileBytes entry (hperm.mem_iff.mp he), ?_, ?_, hnodup, hcase⟩
    · have hmem := hperm.mem_iff.mp he
      obtain ⟨h1, h2, h3, h4, -, h6⟩ := hsafe entry hmem
      refine ⟨h1, h2, h3, h4, fun limit hlimit => ?_, h6⟩
      cases hlimit
      exact hlimits.depth entry hmem
    · rw [JsMap.size_empty]
      omega
    · dsimp only
      omega
  obtain ⟨extracted, hloop, hentries⟩ := extractLoop_written hutf8 hchunks hfits []
  have hentries' : extracted.files.entries = sorted.map fun entry => (entry.path, entry.bytes) :=
    hentries
  have hbound := length_chunks hchunks
  refine ⟨extracted.files, extractNormalizedTarGz_eq_ok.mpr ⟨hlimits.compressed, _, extracted,
    hgzip _ _ ?_, hloop, ?_, rfl⟩, ?_⟩
  · rw [List.length_append, List.length_replicate]
    have hcount : sorted.length * 1024 ≤ limits.maxFiles * 1024 :=
      Nat.mul_le_mul_right 1024 (by omega)
    omega
  · have hpos := List.length_pos_iff.mpr hnonempty
    unfold JsMap.size
    rw [hentries', List.length_map]
    omega
  · rw [hentries']
    exact hperm.map _

theorem wellFormed_of_mem_pathFields (hutf8 : ∀ bytes, wellFormed (host.utf8 bytes) = true)
    {tar : List UInt8} {field : Str} (offset : Nat) (h : field ∈ pathFields host tar offset) :
    wellFormed field = true := by
  induction offset using pathFields.induct tar with
  | case1 offset hoffset hzero =>
    rw [pathFields, if_pos hoffset, if_pos hzero] at h
    cases h
  | case2 offset hoffset hzero message hsize =>
    rw [pathFields, if_pos hoffset, if_neg hzero, hsize] at h
    cases h
  | case3 offset hoffset hzero size hsize ih =>
    rw [pathFields, if_pos hoffset, if_neg hzero, hsize] at h
    rcases List.mem_cons.mp h with rfl | h
    · exact hutf8 _
    · exact ih h
  | case4 offset hoffset =>
    rw [pathFields, if_neg hoffset] at h
    cases h

theorem uncut_of_returned (hutf8 : ∀ bytes, wellFormed (host.utf8 bytes) = true)
    (h : Returned host limits entries archive) :
    ∀ entry ∈ entries, wellFormed entry.path = true ∧ NoFinalNul entry.path := by
  obtain ⟨files, hfiles, hperm⟩ := h
  obtain ⟨-, tar, -, hkeys⟩ := extract_lawful hfiles
  intro entry hentry
  have hpair : (entry.path, entry.bytes) ∈ files.entries :=
    hperm.mem_iff.mpr (List.mem_map_of_mem hentry)
  have hkey : entry.path ∈ files.keys := List.mem_map_of_mem (f := Prod.fst) hpair
  rw [hkeys] at hkey
  obtain ⟨field, hfield, hcut⟩ := List.mem_map.mp hkey
  rw [← hcut]
  exact ⟨wellFormed_cutNul (wellFormed_of_mem_pathFields hutf8 0 hfield), noFinalNul_cutNul field⟩

end

/-- **What archives keep of their files.** Of entries within the limits, the extraction returns
exactly the entries when each path can be written as UTF-8 and each NUL in it has a line terminator
behind it, and otherwise it does not. What it returns of any archive is lawful, and has no NUL in
its paths exactly when no NUL of a path field has a line terminator behind it. -/
theorem archive_iff (host : Host) (limits : ExtractionLimits)
    (hgzip : ∀ bytes n, bytes.length ≤ n → host.gunzipSync (host.gzipSync bytes) n = some bytes)
    (hencode : ∀ s, wellFormed s = true → host.utf8 (encode s) = s)
    (hutf8 : ∀ bytes, wellFormed (host.utf8 bytes) = true) :
    (∀ entries archive, entries ≠ [] → createNormalizedTarGz host entries = .ok archive →
      WithinLimits limits entries archive → (Returned host limits entries archive ↔
        ∀ entry ∈ entries, wellFormed entry.path = true ∧ NoFinalNul entry.path)) ∧
    ∀ archive files, extractNormalizedTarGz host archive limits = .ok files →
      Lawful host limits files ∧ ∀ tar,
        host.gunzipSync archive (limits.maxTotalBytes + limits.maxFiles * 1024 + 1024) = some tar →
        ((∀ path ∈ files.keys, 0 ∉ path) ↔ ∀ field ∈ pathFields host tar 0, NulsLast field) := by
  refine ⟨fun entries archive hnonempty hcreate hlimits => ⟨uncut_of_returned hutf8,
    returned_of_uncut hgzip hencode hnonempty hcreate hlimits⟩, fun archive files hfiles => ?_⟩
  obtain ⟨hlawful, tar, htar, hkeys⟩ := extract_lawful hfiles
  refine ⟨hlawful, fun tar' htar' => ?_⟩
  cases htar.symm.trans htar'
  rw [hkeys, List.forall_mem_map]
  exact forall₂_congr fun field _ => nul_not_mem_cutNul

/-- A host that stores without compression. -/
def storing : Host where
  gzipSync bytes := bytes
  gunzipSync bytes limit := if bytes.length ≤ limit then some bytes else none
  utf8 bytes := (decode bytes).getD [0xFFFD]
  normalize path := path
  toLowerCase path := path
  localeLe left right := left.map UInt16.toNat ≤ right.map UInt16.toNat

theorem storing_gzip (bytes : List UInt8) (n : Nat) (h : bytes.length ≤ n) :
    storing.gunzipSync (storing.gzipSync bytes) n = some bytes := if_pos h

theorem storing_encode (s : Str) (h : wellFormed s = true) : storing.utf8 (encode s) = s := by
  show (decode (encode s)).getD [0xFFFD] = s
  rw [decode_encode h]
  rfl

theorem storing_utf8 (bytes : List UInt8) : wellFormed (storing.utf8 bytes) = true := by
  show wellFormed ((decode bytes).getD [0xFFFD]) = true
  cases h : decode bytes with
  | none => rfl
  | some s => exact (decode_eq_some.mp h).2

/-- The archive of one file with one byte. -/
def single (path : Str) : List UInt8 :=
  ((createNormalizedTarGz storing [⟨path, [1]⟩]).toOption).getD []

theorem archive_iff_single :
    Returned storing defaultExtractionLimits [⟨units "a", [1]⟩] (single (units "a")) ∧
      ∀ files, extractNormalizedTarGz storing (single (units "a")) defaultExtractionLimits =
        .ok files → ∀ path ∈ files.keys, 0 ∉ path := by
  obtain ⟨hwritten, hread⟩ := archive_iff storing defaultExtractionLimits storing_gzip
    storing_encode storing_utf8
  refine ⟨(hwritten [⟨units "a", [1]⟩] (single (units "a")) (List.cons_ne_nil _ _)
    (by decide +kernel) ⟨by decide +kernel, by decide, by decide, by decide, by decide⟩).mpr ?_,
    fun files hfiles => ?_⟩
  · intro entry hentry
    cases List.mem_singleton.mp hentry
    refine ⟨by decide, fun before after h => ?_⟩
    have hmem : (0 : UInt16) ∈ before ++ 0 :: after :=
      List.mem_append_right before List.mem_cons_self
    rw [← h] at hmem
    exact absurd hmem (by decide)
  · refine ((hread _ files hfiles).2 (single (units "a")) (by decide +kernel)).mpr ?_
    intro field hfield before after h
    have hfields : pathFields storing (single (units "a")) 0 =
        [units "a" ++ List.replicate 99 0] := by decide +kernel
    rw [hfields, List.mem_singleton] at hfield
    have hany : (units "a" ++ List.replicate 99 0).any isLineTerminator = false := by decide
    rw [← hfield, h, List.any_append, List.any_cons, Bool.or_eq_false_iff,
      Bool.or_eq_false_iff] at hany
    exact hany.2.2

/-- The path `a\0b` is written and read back as `a`; the path `a\0\nb` is read back with its NUL. -/
theorem archive_nul :
    (createNormalizedTarGz storing [⟨[97, 0, 98], [1]⟩] = .ok (single [97, 0, 98]) ∧
      WithinLimits defaultExtractionLimits [⟨[97, 0, 98], [1]⟩] (single [97, 0, 98]) ∧
      ¬ Returned storing defaultExtractionLimits [⟨[97, 0, 98], [1]⟩] (single [97, 0, 98])) ∧
    ∃ files path, extractNormalizedTarGz storing (single [97, 0, 10, 98]) defaultExtractionLimits =
      .ok files ∧ path ∈ files.keys ∧ 0 ∈ path := by
  refine ⟨⟨by decide +kernel, ⟨by decide +kernel, by decide, by decide, by decide, by decide⟩,
    fun h => ?_⟩, ?_⟩
  · have huncut := (uncut_of_returned storing_utf8 h _ List.mem_cons_self).2 [97] [98] rfl
    exact absurd huncut (by decide)
  · have hkeys : (extractNormalizedTarGz storing (single [97, 0, 10, 98])
        defaultExtractionLimits).toOption.map JsMap.keys = some [[97, 0, 10, 98]] := by
      decide +kernel
    cases hfiles : extractNormalizedTarGz storing (single [97, 0, 10, 98])
        defaultExtractionLimits with
    | error message =>
      rw [hfiles] at hkeys
      cases hkeys
    | ok files =>
      rw [hfiles] at hkeys
      refine ⟨files, [97, 0, 10, 98], rfl, ?_, by decide⟩
      rw [Option.some.inj hkeys]
      exact List.mem_cons_self

end KNex.Extensions.Tar
