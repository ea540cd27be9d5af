import NodePlane.Driver.Operations

/-! A file that `persist` wrote is read back as the map it was written from. -/
namespace NodePlane
namespace Driver
open Library

/-- What every map of a store satisfies, so that its file is accepted. -/
structure Operations.WellFormed (operations : Operations) : Prop where
  keyed : ∀ {k r}, operations.lookup k = some r → r.operation.operationId = k ∧ k ≠ ""
  identified : ∀ {k r}, operations.lookup k = some r → r.commandId ≠ "" → r.requestHash.length = 32
  unique : ∀ {k j r q}, operations.lookup k = some r → operations.lookup j = some q →
    r.commandId = q.commandId → r.commandId ≠ "" → k = j

section
variable {format : Format}

@[simp] theorem readRecord_encode (record : StoredOperation) (rest : Bytes) :
    readRecord format false (format.stored.encode record ++ rest) = .ok (record, rest) := by
  simp [readRecord, format.stored.decode_encode]

/-- A record takes at least one byte. -/
theorem encode_ne_nil (record : StoredOperation) (rest : Bytes) :
    format.stored.encode record ++ rest ≠ [] := by
  intro empty
  have shorter := format.stored.shorter (format.stored.decode_encode record rest)
  simp [empty] at shorter

/-- Records that a map may hold next to `items`, whose commands are `commandIds`. -/
structure Fresh (records : List StoredOperation) (items : Operations) (commandIds : List String) :
    Prop where
  named : ∀ r ∈ records, r.operation.operationId ≠ ""
  absent : ∀ r ∈ records, items.lookup r.operation.operationId = none
  distinct : (records.map fun r => r.operation.operationId).Nodup
  identified : ∀ r ∈ records, r.commandId ≠ "" → r.requestHash.length = 32
  unused : ∀ r ∈ records, r.commandId ≠ "" → r.commandId ∉ commandIds
  unique : records.Pairwise fun r q => r.commandId = q.commandId → r.commandId = ""

theorem Fresh.tail {record : StoredOperation} {records : List StoredOperation}
    {items : Operations} {commandIds : List String}
    (fresh : Fresh (record :: records) items commandIds) :
    Fresh records (items.put record.operation.operationId record)
      (if record.commandId = "" then commandIds else record.commandId :: commandIds) where
  named r hr := fresh.named r (List.mem_cons_of_mem _ hr)
  absent r hr := by
    have distinct := fresh.distinct
    rw [List.map_cons, List.nodup_cons] at distinct
    have ne : r.operation.operationId ≠ record.operation.operationId := by
      intro same
      exact distinct.1 (same ▸ List.mem_map_of_mem hr)
    rw [Table.lookup_put_ne record ne]
    exact fresh.absent r (List.mem_cons_of_mem _ hr)
  distinct := by
    have distinct := fresh.distinct
    rw [List.map_cons, List.nodup_cons] at distinct
    exact distinct.2
  identified r hr := fresh.identified r (List.mem_cons_of_mem _ hr)
  unused r hr named := by
    have old := fresh.unused r (List.mem_cons_of_mem _ hr) named
    have other := (List.pairwise_cons.mp fresh.unique).1 r hr
    split
    · exact old
    · rename_i ne
      intro used
      rcases List.mem_cons.mp used with same | used
      · exact ne (other same.symm)
      · exact old used
  unique := (List.pairwise_cons.mp fresh.unique).2

/-- Reading the encodings of fresh records adds exactly these. -/
theorem readRecords_encode (format : Format) {records : List StoredOperation} {items : Operations}
    {commandIds : List String} (fresh : Fresh records items commandIds) :
    ∃ read, readRecords format false (records.flatMap format.stored.encode) items commandIds =
        .ok read ∧
      ∀ k r, read.lookup k = some r ↔
        items.lookup k = some r ∨ (r ∈ records ∧ r.operation.operationId = k) := by
  induction records generalizing items commandIds with
  | nil =>
    refine ⟨items, ?_, by simp⟩
    rw [readRecords]
    simp
  | cons record records ih =>
    obtain ⟨read, ok, lookup⟩ := ih fresh.tail
    have absent := fresh.absent record (by simp)
    have named := fresh.named record (by simp)
    have known : ¬(record.commandId ≠ "" ∧
        (record.requestHash.length ≠ 32 ∨ record.commandId ∈ commandIds)) := by
      rintro ⟨identified, short | used⟩
      · exact short (fresh.identified record (by simp) identified)
      · exact fresh.unused record (by simp) identified used
    refine ⟨read, ?_, ?_⟩
    · rw [readRecords, List.flatMap_cons, if_neg (encode_ne_nil record _)]
      split
      · rename_i e failed
        rw [readRecord_encode] at failed
        cases failed
      · rename_i got after decoded
        rw [readRecord_encode] at decoded
        cases decoded
        rw [if_neg known, if_neg (by simp [named, absent]), ok]
    · intro k r
      rw [lookup, Table.lookup_put]
      by_cases here : k = record.operation.operationId
      · subst here
        constructor
        · rintro (same | ⟨later, id⟩)
          · simp only [if_true, Option.some.injEq] at same
            exact .inr ⟨by simp [same], by rw [same]⟩
          · exact .inr ⟨List.mem_cons_of_mem _ later, id⟩
        · rintro (old | ⟨later, id⟩)
          · rw [absent] at old
            cases old
          · rcases List.mem_cons.mp later with rfl | later
            · simp
            · exact .inr ⟨later, id⟩
      · simp only [if_neg here, List.mem_cons]
        constructor
        · rintro (old | ⟨later, id⟩)
          · exact .inl old
          · exact .inr ⟨.inr later, id⟩
        · rintro (old | ⟨rfl | later, id⟩)
          · exact .inl old
          · exact absurd id.symm here
          · exact .inr ⟨later, id⟩

end

theorem mem_sorted {operations : Operations} {r : StoredOperation} :
    r ∈ sorted operations ↔ ∃ k, operations.lookup k = some r := by
  unfold sorted
  rw [(List.mergeSort_perm _ _).mem_iff, List.mem_map]
  constructor
  · rintro ⟨⟨k, q⟩, row, rfl⟩
    exact ⟨k, Table.mem_rows_iff.mp row⟩
  · rintro ⟨k, row⟩
    exact ⟨(k, r), Table.mem_rows_iff.mpr row, rfl⟩

/-- The rows in any order, each under its own id. -/
theorem rows_ids {operations : Operations} (wellFormed : operations.WellFormed) :
    operations.rows.map (fun row => row.2.operation.operationId) =
      operations.rows.map Prod.fst := by
  apply List.map_congr_left
  rintro ⟨k, r⟩ row
  exact (wellFormed.keyed (Table.mem_rows_iff.mp row)).1

theorem sorted_fresh {operations : Operations} (wellFormed : operations.WellFormed) :
    Fresh (sorted operations) ∅ [] where
  named r hr := by
    obtain ⟨k, row⟩ := mem_sorted.mp hr
    obtain ⟨id, named⟩ := wellFormed.keyed row
    rw [id]
    exact named
  absent _ _ := rfl
  distinct := by
    have perm := (List.mergeSort_perm (operations.rows.map Prod.snd)
      fun a b => decide (a.operation.operationId ≤ b.operation.operationId)).map
        fun r => r.operation.operationId
    unfold sorted
    rw [perm.nodup_iff, List.map_map]
    show (operations.rows.map fun row => row.2.operation.operationId).Nodup
    rw [rows_ids wellFormed]
    exact operations.rows_keys_nodup
  identified r hr named := by
    obtain ⟨k, row⟩ := mem_sorted.mp hr
    exact wellFormed.identified row named
  unused _ _ _ := by simp
  unique := by
    have perm := List.mergeSort_perm (operations.rows.map Prod.snd)
      fun a b => decide (a.operation.operationId ≤ b.operation.operationId)
    unfold sorted
    rw [perm.pairwise_iff (fun same => fun h => by rw [h]; exact same h.symm), List.pairwise_map]
    have nodup := operations.rows_keys_nodup
    rw [List.Nodup, List.pairwise_map] at nodup
    apply nodup.imp_of_mem
    rintro ⟨k, r⟩ ⟨j, q⟩ here there ne same
    by_contra named
    exact ne (wellFormed.unique (Table.mem_rows_iff.mp here) (Table.mem_rows_iff.mp there) same
      named)

theorem headers_differ (rest : Bytes) :
    legacyFileHeader.isPrefixOf (fileHeader ++ rest) = false := by
  have lengths : legacyFileHeader.length = fileHeader.length := by decide +kernel
  rw [Bool.eq_false_iff]
  intro starts
  obtain ⟨more, same⟩ := List.isPrefixOf_iff_prefix.mp starts
  have equal := (List.append_inj same lengths).1
  exact absurd equal (by decide +kernel)

/-- What `persist` wrote is read back as the same map. -/
theorem readFile_fileBytes (format : Format) {operations : Operations}
    (wellFormed : operations.WellFormed) :
    ∃ read, readFile format (some (fileBytes format operations)) = .ok read ∧
      ∀ k, read.lookup k = operations.lookup k := by
  obtain ⟨read, ok, lookup⟩ := readRecords_encode format (sorted_fresh wellFormed)
  refine ⟨read, ?_, ?_⟩
  · simp [readFile, fileBytes, headers_differ, ok, List.isPrefixOf_iff_prefix]
  · intro k
    apply Option.ext
    intro r
    rw [lookup, mem_sorted]
    constructor
    · rintro (none | ⟨⟨j, row⟩, id⟩)
      · cases none
      · rw [← id, (wellFormed.keyed row).1]
        exact row
    · intro row
      exact .inr ⟨⟨k, row⟩, (wellFormed.keyed row).1⟩

end Driver
end NodePlane
