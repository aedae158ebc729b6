import SourceAudit.Analysis.ProjectAnalysis
import SourceAudit.Proofs.FileShapes
import SourceAudit.Proofs.ReplyShapes
import SourceAudit.Proofs.WrittenForms

/-!
# The risk in reports

A report shows the risk, but whether it can be made and saved does not depend on it: every risk has
a score, a level and counts, and all of them can be written.
-/

namespace SourceAudit.Outcome

variable {α β γ : Type}

theorem Succeeds.bind_same {a : Outcome α} {next : α → Outcome β} {further : α → Outcome γ}
    (goes : ∀ v, Succeeds (next v) → Succeeds (further v))
    (hd : Succeeds (a >>= next)) : Succeeds (a >>= further) := by
  obtain ⟨v, hb, he⟩ := succeeds_bind.mp hd
  exact succeeds_bind.mpr ⟨v, hb, goes v he⟩

theorem Succeeds.bind_known {δ : Type} {a : Outcome α} {b : Outcome δ} {v : α}
    {other : δ} {next : α → Outcome β} {further : δ → Outcome γ} (hb : a = .ok v)
    (also : b = .ok other) (goes : Succeeds (next v) → Succeeds (further other))
    (hd : Succeeds (a >>= next)) : Succeeds (b >>= further) := by
  rw [bind_ok hb] at hd
  rw [bind_ok also]
  exact goes hd

end SourceAudit.Outcome

namespace SourceAudit.Report

open SourceAudit.Outcome
open Outside
open SourceAudit.Findings (Risk)

structure Frame where
  path : String
  static : Value
  dynamic : Value
  aggregated : Value
  threats : Value

namespace Frame

def data (frame : Frame) (risk : Risk) : Value :=
  .record [("file_path", .text frame.path), ("static_results", frame.static),
    ("dynamic_results", frame.dynamic), ("aggregated_results", frame.aggregated),
    ("threats", frame.threats), ("risk_assessment", risk.toValue)]

variable (frame : Frame) (risk other : Risk)

theorem isBatch_data : isBatch (frame.data risk) = .ok false := by
  have unstated : (frame.data risk).get "analysis_type" = .ok .null := rfl
  have different : Value.null.same (.text "batch") = false := by
    simp [Value.same, Value.isNumber]
  rw [isBatch, bind_ok unstated, different]
  rfl

theorem threats_data : (frame.data risk).getD "threats" (.list []) = .ok frame.threats := rfl

theorem risk_data :
    (frame.data risk).getD "risk_assessment" (.record []) = .ok risk.toValue := rfl

theorem aggregated_data :
    (frame.data risk).getD "aggregated_results" (.record []) = .ok frame.aggregated := rfl

end Frame

variable (risk other : Risk)

/-! ## Documents -/

theorem succeeds_document (m : Moment) (frame : Frame)
    (made : Succeeds (document m (frame.data risk))) :
    Succeeds (document m (frame.data other)) := by
  have parts (risk : Risk) : sections (frame.data risk) = sections (frame.data other) := by
    rw [sections, sections, frame.isBatch_data, frame.isBatch_data]
    rfl
  rw [document] at made ⊢
  rw [parts risk] at made
  refine made.bind_same fun summaries hw => ?_
  rw [Json.indented, Succeeds, Json.complete_write_isOk] at hw ⊢
  exact hw

/-! ## Pages and Markdown -/

theorem exists_levelWord : ∃ w, wordOrCapitals levelWords (.text risk.level.name) = .ok w := by
  cases risk.level <;> exact ⟨_, rfl⟩

theorem exists_singleHead (score level n : String) :
    ∃ head, Html.singleHead score level n (fun k => do
      shownCount (← risk.toValue.getD "breakdown" (.record [])) k) = .ok head :=
  ⟨_, rfl⟩

theorem succeeds_singlePage (m : Moment) (frame : Frame)
    (made : Succeeds (Html.singlePage m (frame.data risk))) :
    Succeeds (Html.singlePage m (frame.data other)) := by
  obtain ⟨w, worded⟩ := exists_levelWord risk
  obtain ⟨otherWord, otherWorded⟩ := exists_levelWord other
  rw [Html.singlePage] at made ⊢
  revert made
  refine .bind_known (frame.threats_data risk) (frame.threats_data other) ?_
  refine .bind_known (frame.risk_data risk) (frame.risk_data other) ?_
  refine .bind_known (frame.aggregated_data risk) (frame.aggregated_data other) ?_
  refine .bind_same fun srcs => .bind_same fun f => .bind_same fun rows => ?_
  -- the score, the level, which is a text, and the count of threats
  refine .bind_known rfl rfl (.bind_known rfl rfl ?_)
  refine .bind_known rfl rfl (.bind_known rfl rfl ?_)
  refine .bind_known worded otherWorded ?_
  obtain ⟨head, headed⟩ := exists_singleHead risk _ w _
  obtain ⟨otherHead, otherHeaded⟩ := exists_singleHead other _ otherWord _
  refine .bind_known headed otherHeaded ?_
  -- From here on only the head differs, and it is put in front of the rest.
  refine .bind_same fun xs => .bind_same fun threatRows => ?_
  refine .bind_same fun _ => .bind_same fun _ => .bind_same fun _ => .bind_same fun _ => ?_
  refine .bind_same fun _ => .bind_same fun _ => .bind_same fun _ => .bind_same fun _ => ?_
  refine .bind_same fun _ => .bind_same fun _ => ?_
  exact .bind_same fun network => .bind_same fun ev => fun _ => succeeds_pure _

theorem succeeds_single (m : Moment) (frame : Frame)
    (made : Succeeds (Markdown.single m (frame.data risk))) :
    Succeeds (Markdown.single m (frame.data other)) := by
  have path (risk : Risk) : shown (frame.data risk) "file_path" (.text "未知文件") = .ok frame.path :=
    rfl
  obtain ⟨w, worded⟩ := exists_levelWord risk
  obtain ⟨otherWord, otherWorded⟩ := exists_levelWord other
  rw [Markdown.single] at made ⊢
  revert made
  refine .bind_known (path risk) (path other) ?_
  refine .bind_known (frame.threats_data risk) (frame.threats_data other) ?_
  refine .bind_known (frame.risk_data risk) (frame.risk_data other) ?_
  refine .bind_known (frame.aggregated_data risk) (frame.aggregated_data other) ?_
  -- the score, the level, the count of threats and their breakdown
  refine .bind_known rfl rfl (.bind_known rfl rfl ?_)
  refine .bind_known rfl rfl (.bind_known rfl rfl ?_)
  refine .bind_same fun srcs => ?_
  refine .bind_known worded otherWorded ?_
  -- the counts by severity
  refine .bind_known rfl rfl (.bind_known rfl rfl ?_)
  refine .bind_known rfl rfl (.bind_known rfl rfl ?_)
  refine .bind_same fun blocks => ?_
  refine .bind_same fun _ => .bind_same fun _ => .bind_same fun _ => .bind_same fun _ => ?_
  refine .bind_same fun _ => .bind_same fun _ => .bind_same fun _ => ?_
  refine .bind_same fun _ => .bind_same fun _ => .bind_same fun _ => .bind_same fun _ => ?_
  exact .bind_same fun _ => .bind_same fun network => fun _ => succeeds_pure _

end SourceAudit.Report

namespace SourceAudit.Analysis

open SourceAudit.Outcome
open Outside
open SourceAudit.Findings (Risk)

def FileResults.frame (res : FileResults) : Report.Frame where
  path := res.path
  static := res.static
  dynamic := res.dynamic
  aggregated := res.aggregated
  threats := res.threats

theorem succeeds_render {k : ReportKind} {m : Moment} {res : FileResults} {risk other : Risk}
    (made : Succeeds (k.render m { res with risk := risk.toValue }.reportData)) :
    Succeeds (k.render m { res with risk := other.toValue }.reportData) := by
  cases k with
  | json => exact Report.succeeds_document risk other m res.frame made
  | html =>
    have page (risk : Risk) : Report.Html.page m (res.frame.data risk) =
        Report.Html.singlePage m (res.frame.data risk) := by
      rw [Report.Html.page, bind_ok (res.frame.isBatch_data risk)]
      rfl
    change Succeeds (Report.Html.page m (res.frame.data risk)) at made
    change Succeeds (Report.Html.page m (res.frame.data other))
    rw [page] at made ⊢
    exact Report.succeeds_singlePage risk other m res.frame made
  | markdown =>
    have text (risk : Risk) : Report.Markdown.text m (res.frame.data risk) =
        Report.Markdown.single m (res.frame.data risk) := by
      rw [Report.Markdown.text, bind_ok (res.frame.isBatch_data risk)]
      rfl
    change Succeeds (Report.Markdown.text m (res.frame.data risk)) at made
    change Succeeds (Report.Markdown.text m (res.frame.data other))
    rw [text] at made ⊢
    exact Report.succeeds_single risk other m res.frame made

/-! ## Saving -/

theorem matches_save (c another p form : String) :
    Audit.Matches (Report.save (.text c) p form) (Report.save (.text another) p form) := by
  rw [Report.save, Report.save]
  dsimp only
  split
  · exact .bind (.makeDirectories _) fun _ => .bind (.writeText _ _ _) fun _ => .pure _
  · exact .bind (.writeText _ _ _) fun _ => .pure _

theorem matches_saveReports (dir stem : String) (res : FileResults) (risk other : Risk)
    (kinds : List ReportKind) :
    Audit.Matches (saveReports dir stem { res with risk := risk.toValue } kinds)
      (saveReports dir stem { res with risk := other.toValue } kinds) := by
  induction kinds with
  | nil => exact .pure _
  | cons k tl ih =>
    intro s b s' paths hs hd
    rw [saveReports] at hd ⊢
    obtain ⟨c, rendered, hd⟩ := Audit.ofOutcome_bind_eq_ok hd
    obtain ⟨another, also⟩ : Succeeds (k.render Moment.current
        { res with risk := other.toValue }.reportData) := succeeds_render ⟨c, rendered⟩
    have saved := Audit.Matches.bind (matches_save c another (reportPath dir stem k) k.name)
      fun p => ih.bind fun others => .pure ((k, p) :: others)
    obtain ⟨l, finished, last⟩ := saved _ _ _ _ hs hd
    exact ⟨l, (Audit.perform_given also).trans finished, last⟩

end SourceAudit.Analysis
