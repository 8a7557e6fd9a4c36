import Mathlib
import AgenticGovernance.Audit.Columns
import AgenticGovernance.Compliance.Report

/-!
# Reports over rows as they are read

`_load_chain_rows` makes its records of the columns of the table, so that the metadata of a
row comes back from JSONB.  The window and the links of a log do not depend on the
metadata; the MACs of a row are checked over what was read, and hold exactly when its
floats are plain.
-/

namespace AgenticGovernance.Compliance

open Support Audit

variable (C : ColumnTypes)

/-- The row with the record that `_row_to_record` makes of its columns. -/
def readRow (row : AuditRow) : AuditRow := { row with record := C.rowToRecord row.record }

/-- The tables as queries see them. -/
def readTables (T : ChainTables) : ChainTables := { T with rows := T.rows.map (readRow C) }

/-! ## Windows and links -/

section

variable {C} {g : ReportGenerator} {T : ChainTables}

theorem chainSeqs_readTables (T : ChainTables) :
    (readTables C T).rows.map (fun row => row.chainSeq) = T.rows.map fun row => row.chainSeq := by
  rw [readTables, List.map_map]
  rfl

theorem any_kind_readTables (T : ChainTables) (kind : String) :
    (readTables C T).rows.any (fun row => row.record.kind = kind) =
      T.rows.any fun row => row.record.kind = kind := by
  rw [readTables, List.any_map]
  rfl

/-- The rows of a window are selected and sorted before they are read. -/
theorem loadChainRows_readTables (hdatabase : g.database = some (readTables C T))
    (lo hi : Option ℕ) :
    g.loadChainRows lo hi = (windowRows lo hi T.rows).map (readRow C) := by
  rw [ReportGenerator.loadChainRows, hdatabase]
  have hfilter : (readTables C T).rows.filter (inWindow lo hi) =
      (T.rows.filter (inWindow lo hi)).map (readRow C) := by
    rw [readTables, List.filter_map]
    rfl
  change List.insertionSort _ ((readTables C T).rows.filter (inWindow lo hi)) = _
  rw [hfilter]
  exact (List.map_insertionSort (fun a b : AuditRow => a.chainSeq ≤ b.chainSeq)
    (fun a b : AuditRow => a.chainSeq ≤ b.chainSeq) (readRow C) _ fun _ _ _ _ => Iff.rfl).symm

theorem records_map_readRow (rows : List AuditRow) :
    (rows.map (readRow C)).map (fun row => row.record) =
      (rows.map fun row => row.record).map C.rowToRecord := by
  rw [List.map_map, List.map_map]
  rfl

/-- The links of the records that are read are those of the records that were written. -/
theorem checkPerSessionLinkage_read_iff {records : List AuditEventRecord} {genesis : Bool} :
    checkPerSessionLinkage (records.map C.rowToRecord) genesis = none ↔
      checkPerSessionLinkage records genesis = none := by
  have hsession : ∀ sid, sessionRecords (records.map C.rowToRecord) sid =
      (sessionRecords records sid).map C.rowToRecord := by
    intro sid
    rw [sessionRecords, List.filter_map]
    rfl
  have hchain : ∀ p (l : List AuditEventRecord),
      ChainFrom p (l.map C.rowToRecord) ↔ ChainFrom p l := by
    intro p l
    exact linkedFrom_map C.rowToRecord p l
  rw [checkPerSessionLinkage_eq_none_iff, checkPerSessionLinkage_eq_none_iff]
  simp only [hsession, hchain]

end

/-! ## The MACs of a row -/

section

variable {C} {H : Hmac} {row : AuditRow}

theorem computeEventHmac_asMarker_readRow (hpython : row.record.FromPython)
    (hplain : row.record.PlainFloats) (key : Bytes) :
    computeEventHmac H key (readRow C row).record.asMarker =
      computeEventHmac H key row.record.asMarker := by
  have hsame := (ColumnTypes.sortKeys_rowToRecord_iff (C := C) hpython).mpr hplain
  change computeEventHmac H key (C.rowToRecord row.record).toEventContent.asMarker = _
  rw [ColumnTypes.toEventContent_rowToRecord hpython.utc]
  exact congrArg (H.hexdigest key)
    (ColumnTypes.canonical_of_sortKeys_eq (c := row.record.asMarker) hsame)

/-- A row that verifies as it was written, with plain floats, verifies as it is read. -/
theorem checkRow_readRow {S : KeySource} {versions : List KeyVersion}
    {uriMap : String → Option String} (hpython : row.record.FromPython)
    (hplain : row.record.PlainFloats)
    (hverified : checkRow H S versions uriMap row = .ok .verified) :
    checkRow H S versions uriMap (readRow C row) = .ok .verified := by
  have hcontent := fun key => ColumnTypes.computeEventHmac_rowToRecord (C := C) hpython hplain H key
  have hmarker := fun key => computeEventHmac_asMarker_readRow (C := C) (H := H) hpython hplain key
  rw [checkRow_eq_verified_iff] at hverified ⊢
  obtain ⟨active, secret, hactive, hsecret, hmacs⟩ := hverified
  refine ⟨active, secret, hactive, hsecret, ?_⟩
  have hkind : isMarker (readRow C row) = isMarker row := rfl
  rw [hkind]
  split
  · rename_i hrotation
    rw [if_pos hrotation, checkMarker_eq_verified_iff] at hmacs
    obtain ⟨incoming, outSecret, inSecret, hincoming, hne, hout, hin, hmac, hnext⟩ := hmacs
    rw [checkMarker_eq_verified_iff]
    refine ⟨incoming, outSecret, inSecret, hincoming, hne, hout, hin, ?_, ?_⟩
    · exact hmac.trans (hmarker outSecret).symm
    · exact hnext.trans (hmarker inSecret).symm
  · rename_i hordinary
    rw [if_neg hordinary] at hmacs
    exact hmacs.trans (hcontent secret).symm

/-- A MAC that holds for a record as it was written and as it is read shows that its floats
are plain. -/
theorem plainFloats_of_macs {r : AuditEventRecord} {key : Bytes} (hpython : r.FromPython)
    (hfree : H.CollisionFreeOn key (C.rowPayloads r))
    (hwritten : r.hmac = computeEventHmac H key r.toEventContent)
    (hread : r.hmac = computeEventHmac H key (C.rowToRecord r).toEventContent) :
    r.PlainFloats := by
  have hsame : (eventPayload (C.rowToRecord r).toEventContent).canonical =
      (eventPayload r.toEventContent).canonical :=
    hfree (Or.inr rfl) (Or.inl rfl) (hread.symm.trans hwritten)
  exact (ColumnTypes.sortKeys_rowToRecord_iff hpython).mp
    ((ColumnTypes.canonical_rowToRecord_eq_iff hpython.utc).mp hsame)

end

end AgenticGovernance.Compliance
