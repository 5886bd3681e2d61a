import KNex.Contracts.CompactJson

/-!
# Saved-view definitions in chunks (`modules/sales/src/contracts.ts`, `modules/sales/src/server.ts`)

A saved view is persisted as JSON without white space, of at most 16384 UTF-8 bytes
(`canonicalSalesSavedViewJson`), and is served in rows of at most 512 bytes. The loop of
`salesSavedViewDetailHandler` goes over the characters and starts a new chunk where the next one
would not fit, so every chunk but the last is short of 512 by at most three bytes (`Packed.full`) and
33 chunks always suffice.
-/
namespace KNex.Sales.SavedViews

open KNex.Core KNex.Core.JsonText KNex.Core.TextCoding KNex.Contracts.CanonicalJson

variable {N : Type}

/-- mirrors modules/sales/src/contracts.ts:326; `none` where it throws -/
def canonicalSalesSavedViewJson (F : Integers N) (value : JsValue N) : Option Str :=
  match canonicalJson F.toNumberFormat value with
  | .ok text => (parse F.toNumberFormat text).map (compact F)
  | .error _ => none

/-! ## The chunk loop -/

/-- What `for (const scalar of text)` iterates over. -/
def codePoints : Str → List Str
  | [] => []
  | [c] => [[c]]
  | c :: d :: s =>
    if isLead c && isTrail d then [c, d] :: codePoints s else [c] :: codePoints (d :: s)

structure Packing where
  chunks : List Str
  chunk : Str
  bytes : Nat

/-- mirrors modules/sales/src/server.ts:2284 -/
def packScalar (p : Packing) (scalar : Str) : Packing :=
  let scalarBytes := byteLength scalar
  if p.bytes + scalarBytes > 512 then
    { chunks := p.chunks ++ [p.chunk], chunk := scalar, bytes := scalarBytes }
  else { p with chunk := p.chunk ++ scalar, bytes := p.bytes + scalarBytes }

inductive DetailError where
  /-- `Sales saved-view definition chunking exceeded its bound.` -/
  | invalidSourceOutput
  deriving DecidableEq, Repr

/-- mirrors modules/sales/src/server.ts:2283-2286 -/
def definitionChunks (definition : Str) : Except DetailError (List Str) :=
  let packing := (codePoints definition).foldl packScalar { chunks := [], chunk := [], bytes := 0 }
  let chunks := packing.chunks ++ [packing.chunk]
  if chunks.length > 33 || chunks.any fun value => byteLength value > 512 then
    .error .invalidSourceOutput
  else .ok chunks

/-- The fields of a row that say which chunk it is. -/
structure ChunkRow where
  chunkIndex : Nat
  chunkCount : Nat
  definitionChunk : Str

def chunkRows (chunks : List Str) : List ChunkRow :=
  chunks.mapIdx fun index value =>
    { chunkIndex := index, chunkCount := chunks.length, definitionChunk := value }

/-- mirrors modules/sales/src/server.ts:2283-2287 -/
def definitionRows (definition : Str) : Except DetailError (List ChunkRow) := do
  let chunks ← definitionChunks definition
  return chunkRows chunks

/-! ## Characters and their bytes -/

theorem codePoints_eq : ∀ {s : Str}, wellFormed s = true → codePoints s = (scalars s).map ofChar
  | [], _ => rfl
  | [c], h => by
    simp only [wellFormed, Bool.and_eq_true, Bool.not_eq_true'] at h
    rw [codePoints, scalars, List.map_singleton, ofChar_lone h.1 h.2]
  | c :: d :: s, h => by
    rw [wellFormed] at h
    rw [codePoints, scalars]
    split
    · rename_i hpair
      rw [if_pos hpair] at h
      rw [Bool.and_eq_true] at hpair
      rw [List.map_cons, ofChar_pair hpair.1 hpair.2, codePoints_eq h]
    · rename_i hpair
      rw [if_neg hpair] at h
      simp only [Bool.and_eq_true, Bool.not_eq_true'] at h
      rw [List.map_cons, ofChar_lone h.1.1 h.1.2, codePoints_eq h.2]

theorem byteLength_ofChars (l : List Char) :
    byteLength (ofChars l) = (l.map Char.utf8Size).sum := by
  unfold byteLength encode
  rw [(scalars_ofChars l).1, List.length_flatMap]
  simp

theorem ofChars_snoc (l : List Char) (c : Char) : ofChars (l ++ [c]) = ofChars l ++ ofChar c := by
  simp [ofChars]

theorem byteLength_ofChar (c : Char) : byteLength (ofChar c) = c.utf8Size := by
  have h := byteLength_ofChars [c]
  simpa [ofChars] using h

theorem ofChar_ne_nil (c : Char) : ofChar c ≠ [] := by
  unfold ofChar
  simp [codeUnits_ne_nil]

/-! ## What the loop keeps -/

/-- The packing of a text: its chunks put together are the text, every closed chunk is full but for
three bytes, and the count of the open chunk is right. -/
structure Packed (text : List Char) (p : Packing) : Prop where
  whole : p.chunks.flatten ++ p.chunk = ofChars text
  full : ∀ c ∈ p.chunks, 509 ≤ byteLength c ∧ byteLength c ≤ 512
  chars : ∃ l, p.chunk = ofChars l
  counted : p.bytes = byteLength p.chunk
  fits : p.bytes ≤ 512
  started : text ≠ [] → p.chunk ≠ []
  total : p.chunks.length * 509 + p.bytes ≤ byteLength (ofChars text)

theorem packed_nil : Packed [] { chunks := [], chunk := [], bytes := 0 } where
  whole := rfl
  full _ hc := absurd hc List.not_mem_nil
  chars := ⟨[], rfl⟩
  counted := rfl
  fits := Nat.zero_le _
  started h := absurd rfl h
  total := Nat.zero_le _

theorem Packed.step {text : List Char} {p : Packing} (h : Packed text p) (c : Char) :
    Packed (text ++ [c]) (packScalar p (ofChar c)) := by
  have hone := byteLength_ofChar c
  have hsmall := Char.utf8Size_le_four c
  have htext : byteLength (ofChars (text ++ [c])) = byteLength (ofChars text) + c.utf8Size := by
    simp [byteLength_ofChars]
  obtain ⟨l, hl⟩ := h.chars
  have hmore : byteLength (p.chunk ++ ofChar c) = byteLength p.chunk + c.utf8Size := by
    rw [hl, ← ofChars_snoc]
    simp [byteLength_ofChars]
  have htotal := h.total
  have hcounted := h.counted
  unfold packScalar
  dsimp only
  split
  · rename_i hover
    constructor
    · show (p.chunks ++ [p.chunk]).flatten ++ ofChar c = _
      rw [ofChars_snoc, ← h.whole]
      simp
    · intro d hd
      rcases List.mem_append.mp hd with hd | hd
      · exact h.full d hd
      · rw [List.mem_singleton.mp hd, ← hcounted]
        exact ⟨by omega, h.fits⟩
    · exact ⟨[c], by simp [ofChars]⟩
    · rfl
    · show byteLength (ofChar c) ≤ 512
      omega
    · exact fun _ => ofChar_ne_nil c
    · have hclosed : 509 ≤ p.bytes := by omega
      have hmono := le_trans (Nat.add_le_add_left hclosed _) htotal
      simp only [List.length_append, List.length_singleton, Nat.add_mul, Nat.one_mul, htext, hone]
      exact Nat.add_le_add_right hmono _
  · rename_i hroom
    constructor
    · show p.chunks.flatten ++ (p.chunk ++ ofChar c) = _
      rw [ofChars_snoc, ← h.whole, List.append_assoc]
    · exact h.full
    · exact ⟨l ++ [c], by rw [ofChars_snoc, hl]⟩
    · show p.bytes + byteLength (ofChar c) = byteLength (p.chunk ++ ofChar c)
      omega
    · show p.bytes + byteLength (ofChar c) ≤ 512
      omega
    · exact fun _ hnil => ofChar_ne_nil c (List.append_eq_nil_iff.mp hnil).2
    · dsimp only
      omega

theorem Packed.run : ∀ (rest : List Char) {text : List Char} {p : Packing}, Packed text p →
    Packed (text ++ rest) ((rest.map ofChar).foldl packScalar p)
  | [], text, p, h => by simpa using h
  | c :: rest, text, p, h => by
    have hrun := Packed.run rest (h.step c)
    rwa [List.append_assoc] at hrun

/-! ## A stored view can be read back -/

theorem wellFormed_canonical {F : Integers N} {value : JsValue N} {definition : Str}
    (h : canonicalSalesSavedViewJson F value = some definition) :
    wellFormed definition = true ∧ definition ≠ [] := by
  unfold canonicalSalesSavedViewJson at h
  split at h
  · obtain ⟨v, -, rfl⟩ := Option.map_eq_some_iff.mp h
    exact ⟨(byteLength_compact F v).1.1, compact_ne_nil F v⟩
  · cases h

/-- A packing of at most 16384 bytes closes at most 32 chunks. -/
theorem Packed.count {text : List Char} {p : Packing} (h : Packed text p) 
    (hbytes : byteLength (ofChars text) ≤ 16384) : p.chunks.length ≤ 32 := by
  have htotal := h.total
  omega

theorem definitionChunks_whole {F : Integers N} {value : JsValue N} {definition : Str}
    (hdefinition : canonicalSalesSavedViewJson F value = some definition)
    (hbytes : byteLength definition ≤ 16384) :
    ∃ chunks, definitionChunks definition = .ok chunks ∧ chunks.flatten = definition ∧
      (∀ chunk ∈ chunks, chunk ≠ [] ∧ byteLength chunk ≤ 512) ∧ chunks.length ≤ 33 := by
  obtain ⟨hwell, hne⟩ := wellFormed_canonical hdefinition
  have hself := ofChars_scalars hwell
  obtain ⟨p, hp⟩ : ∃ p, p = (codePoints definition).foldl packScalar ⟨[], [], 0⟩ := ⟨_, rfl⟩
  have hpacked : Packed (scalars definition) p := by
    rw [hp, codePoints_eq hwell]
    exact packed_nil.run (scalars definition)
  have hchars : scalars definition ≠ [] := by
    intro hnil
    rw [hnil] at hself
    exact hne hself.symm
  have hcount := hpacked.count (by rw [hself]; exact hbytes)
  have hall : ∀ chunk ∈ p.chunks ++ [p.chunk], chunk ≠ [] ∧ byteLength chunk ≤ 512 := by
    intro chunk hchunk
    rcases List.mem_append.mp hchunk with hchunk | hchunk
    · obtain ⟨hlow, hhigh⟩ := hpacked.full chunk hchunk
      refine ⟨?_, hhigh⟩
      rintro rfl
      simp at hlow
    · rw [List.mem_singleton.mp hchunk]
      exact ⟨hpacked.started hchars, hpacked.counted ▸ hpacked.fits⟩
  have hlen : (p.chunks ++ [p.chunk]).length ≤ 33 := by
    rw [List.length_append, List.length_singleton]
    omega
  refine ⟨p.chunks ++ [p.chunk], ?_, ?_, hall, hlen⟩
  · unfold definitionChunks
    dsimp only
    rw [← hp, if_neg]
    simp only [Bool.or_eq_true, decide_eq_true_eq, List.any_eq_true, not_or, not_exists, not_and]
    exact ⟨by omega, fun chunk hchunk => by have := (hall chunk hchunk).2; omega⟩
  · rw [List.flatten_append, List.flatten_singleton, hpacked.whole, hself]

theorem map_chunk_chunkRows (chunks : List Str) :
    (chunkRows chunks).map ChunkRow.definitionChunk = chunks := by
  unfold chunkRows
  exact List.ext_getElem (by simp) fun i _ _ => by simp

theorem map_index_chunkRows (chunks : List Str) :
    (chunkRows chunks).map ChunkRow.chunkIndex = List.range chunks.length := by
  unfold chunkRows
  exact List.ext_getElem (by simp) fun i _ _ => by simp

/-- **A definition within its byte bound is served whole.** The chunk loop does not fail; the rows
are at most 33, each tells their number, their indices count from zero, their chunks are non-empty
and of at most 512 bytes, and put together in that order the chunks are the definition. -/
theorem definitionRows_whole (F : Integers N) (value : JsValue N) (definition : Str)
    (hdefinition : canonicalSalesSavedViewJson F value = some definition)
    (hbytes : byteLength definition ≤ 16384) :
    ∃ rows, definitionRows definition = .ok rows ∧ rows.length ≤ 33 ∧
      rows.map ChunkRow.chunkIndex = List.range rows.length ∧
      (∀ row ∈ rows, row.chunkCount = rows.length ∧ row.definitionChunk ≠ [] ∧
        byteLength row.definitionChunk ≤ 512) ∧
      (rows.map ChunkRow.definitionChunk).flatten = definition := by
  obtain ⟨chunks, hchunks, hflatten, hall, hlen⟩ := definitionChunks_whole hdefinition hbytes
  have hrows : (chunkRows chunks).length = chunks.length := by simp [chunkRows]
  refine ⟨chunkRows chunks, by rw [definitionRows, hchunks]; rfl, by omega, ?_, ?_, ?_⟩
  · rw [map_index_chunkRows, hrows]
  · intro row hrow
    have hmem : row.definitionChunk ∈ chunks := by
      rw [← map_chunk_chunkRows chunks]
      exact List.mem_map_of_mem hrow
    obtain ⟨i, hi, hget⟩ := List.mem_iff_getElem.mp hrow
    refine ⟨?_, hall _ hmem⟩
    rw [hrows, ← hget]
    simp [chunkRows]
  · rw [map_chunk_chunkRows, hflatten]

/-- The definition that is `null`. -/
theorem definitionRows_whole_null : ∃ rows, definitionRows (units "null") = .ok rows ∧
    rows.length ≤ 33 := by
  obtain ⟨rows, hrows, hlen, -⟩ := definitionRows_whole
    { naturals with one := 1, integer := some ∘ Int.ofNat, integer_zero := rfl, integer_one := rfl } .null (units "null")
    (by decide) (by decide)
  exact ⟨rows, hrows, hlen⟩

end KNex.Sales.SavedViews
