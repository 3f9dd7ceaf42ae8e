import NexusPilot.Sql.Analyze
import NexusPilot.Sql.Piece

/-!
# What the analysis cannot see

The framer never looks at the text of a comment or of a quoted value again once it has passed over
it, so the words it collects, and with them the analysis of the statement, are a function of the rest
of the text. This is a statement about two runs: `visiblePieces` erases what is skipped, two texts
with the same visible pieces are framed alike (`frameSingleStatement_congr`), and so the analyses of
the drivers that use nothing but the framing agree on them.
-/

namespace Sql

open Scan Text

/-- The pieces whose text is passed over: comments and quoted values. -/
def Piece.skipped : Piece → Bool
  | .lineComment | .blockComment | .quotedBlock | .quoted _ => true
  | .terminator | .character _ => false

/-- A piece with the text that stands outside the interiors of comments and quoted values. -/
def visible (p : Piece × List Char) : Piece × List Char :=
  if p.1.skipped then (p.1, []) else p

/-- The text outside the interiors of comments and quoted values. -/
def visiblePieces (d : SqlFramingDialect) (sql : String) :
    Except String (List (Piece × List Char)) :=
  (cutText d sql.toList).map (List.map visible)

/-- Two texts **agree outside skipped text** when they have the same token boundaries and differ in
the interiors of comments and quoted values only. -/
def AgreeOutsideSkipped (d : SqlFramingDialect) (sql sql' : String) : Prop :=
  visiblePieces d sql = visiblePieces d sql'

theorem map_fst_map_visible (ps : List (Piece × List Char)) :
    (ps.map visible).map Prod.fst = ps.map Prod.fst := by
  rw [List.map_map]
  refine List.map_congr_left ?_
  intro p _
  show (visible p).1 = p.1
  rw [visible]
  split_ifs <;> rfl

/-- **Two runs of the framer** on texts that agree outside skipped text end in the same framing. -/
theorem frameSingleStatement_congr {d : SqlFramingDialect} {sql sql' : String}
    {f f' : StatementFraming} (hf : frameSingleStatement sql d = .ok f)
    (hf' : frameSingleStatement sql' d = .ok f') (h : AgreeOutsideSkipped d sql sql') : f = f' := by
  obtain ⟨-, ps, st, hps, hfold, hfin⟩ := frameChars_eq_ok_iff.1 hf
  obtain ⟨-, ps', st', hps', hfold', hfin'⟩ := frameChars_eq_ok_iff.1 hf'
  -- the fold sees the pieces only, and erasing the skipped text keeps them
  have hvis : ps.map visible = ps'.map visible := by
    rw [AgreeOutsideSkipped, visiblePieces, visiblePieces, hps, hps'] at h
    exact Except.ok.inj h
  have hpieces : ps.map Prod.fst = ps'.map Prod.fst := by
    rw [← map_fst_map_visible ps, hvis, map_fst_map_visible ps']
  rw [hpieces, hfold'] at hfold
  obtain rfl : st' = st := Except.ok.inj hfold
  rw [hfin'] at hfin
  exact (Except.ok.inj hfin).symm

/-- The drivers whose analysis is a function of the framing, with the dialect they frame in. -/
def framedDrivers :
    List (String × SqlFramingDialect × (StatementFraming → Except String SqlAnalysis)) :=
  [("sqlite", .sqlite, analyzeSqlite), ("mysql", .mysql, analyzeMysql),
    ("postgres", .postgres, analyzePostgres)]

theorem analyzeSqlForDriver_eq_bind {driver : String} {d : SqlFramingDialect}
    {analyze : StatementFraming → Except String SqlAnalysis}
    (h : (driver, d, analyze) ∈ framedDrivers) (sql : String) :
    analyzeSqlForDriver driver sql = (frameSingleStatement sql d).bind analyze := by
  simp only [framedDrivers, List.mem_cons, Prod.mk.injEq, List.not_mem_nil, or_false] at h
  obtain ⟨rfl, rfl, rfl⟩ | ⟨rfl, rfl, rfl⟩ | ⟨rfl, rfl, rfl⟩ := h <;> rfl

/-- **The analysis does not depend on skipped text.** Two accepted texts that agree outside comments
and quoted values have the same analysis, for each driver that analyzes the framing alone. -/
theorem analyzeSqlForDriver_eq_of_agreeOutsideSkipped {driver : String} {d : SqlFramingDialect}
    {analyze : StatementFraming → Except String SqlAnalysis}
    (hdriver : (driver, d, analyze) ∈ framedDrivers) {sql sql' : String} {f f' : StatementFraming}
    (hf : frameSingleStatement sql d = .ok f) (hf' : frameSingleStatement sql' d = .ok f')
    (h : AgreeOutsideSkipped d sql sql') :
    analyzeSqlForDriver driver sql = analyzeSqlForDriver driver sql' := by
  rw [analyzeSqlForDriver_eq_bind hdriver, analyzeSqlForDriver_eq_bind hdriver, hf, hf',
    frameSingleStatement_congr hf hf' h]

/-- A literal and a comment replaced in a PostgreSQL statement. -/
theorem analyzeSqlForDriver_eq_of_replaced_literal :
    analyzeSqlForDriver "postgres" "DELETE FROM t WHERE k = 'a; WHERE' -- x" =
      analyzeSqlForDriver "postgres" "DELETE FROM t WHERE k = 'SELECT (' -- ) y" := by
  have hf : frameSingleStatement "DELETE FROM t WHERE k = 'a; WHERE' -- x" .postgres =
      .ok ⟨["DELETE", "FROM", "T", "WHERE", "K"], ["DELETE", "FROM", "T", "WHERE", "K"], false⟩ := by
    decide +kernel
  have hf' : frameSingleStatement "DELETE FROM t WHERE k = 'SELECT (' -- ) y" .postgres =
      .ok ⟨["DELETE", "FROM", "T", "WHERE", "K"], ["DELETE", "FROM", "T", "WHERE", "K"], false⟩ := by
    decide +kernel
  have h : AgreeOutsideSkipped .postgres "DELETE FROM t WHERE k = 'a; WHERE' -- x"
      "DELETE FROM t WHERE k = 'SELECT (' -- ) y" := by
    show visiblePieces _ _ = visiblePieces _ _
    decide +kernel
  exact analyzeSqlForDriver_eq_of_agreeOutsideSkipped (.tail _ (.tail _ (.head _))) hf hf' h

end Sql
