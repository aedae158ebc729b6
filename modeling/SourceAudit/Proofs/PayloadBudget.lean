import SourceAudit.Proofs.AgentDocuments

/-!
# Files that fit into a request

The files of a project are taken in their order while their written forms fit together.  A file that
does not fit is left out, and a smaller one behind it may still be taken.
-/

open List

namespace SourceAudit.Agent

open SourceAudit.Outcome

/-- A file in a request has the first characters of the file, and says whether some are missing. -/
structure Copies (limit : Int) (entry : SourceEntry) (file : Value) : Prop where
  path : file.lookup? "path" = some (.text entry.path)
  language : file.lookup? "language" = some (Value.ofText? entry.language)
  content : ∃ content : String, file.lookup? "content" = some (.text content) ∧
    content.toList <+: entry.content.toList ∧
      (content.length : Int) = min (entry.content.length : Int) limit ∧
        file.lookup? "truncated" = some (.bool (decide (content.length < entry.content.length)))

theorem sentFile_eq {lim : Int} (hpos : 0 < lim) (e : SourceEntry) :
    sentFile lim e = .record [("path", .text e.path), ("language", Value.ofText? e.language),
      ("content", .text (String.ofList (e.content.toList.take lim.toNat))),
      ("truncated", .bool (decide (lim < e.content.length)))] := by
  have hc : Int.ofNat e.content.toList.length = e.content.length := congrArg _ String.length_toList
  rw [sentFile, hc, bne_iff_ne.mpr hpos.ne', Bool.true_and]
  by_cases long : lim < e.content.length
  · rw [decide_eq_true long, if_pos rfl, Slice.upTo, if_neg (not_lt.mpr hpos.le)]
  · have whole : e.content.toList.take lim.toNat = e.content.toList :=
      take_of_length_le (by rw [String.length_toList]; omega)
    rw [decide_eq_false long, if_neg Bool.false_ne_true, whole, String.ofList_toList]

theorem copies_sentFile {lim : Int} (hpos : 0 < lim) (e : SourceEntry) :
    Copies lim e (sentFile lim e) := by
  have size : (String.ofList (e.content.toList.take lim.toNat)).length =
      min lim.toNat e.content.length := by
    rw [String.length_ofList, length_take, String.length_toList]
  rw [sentFile_eq hpos]
  refine ⟨by simp [Value.lookup?, Value.field?], by simp [Value.lookup?, Value.field?], _,
    by simp [Value.lookup?, Value.field?]; rfl, ?_, ?_, ?_⟩
  · rw [String.toList_ofList]
    exact take_prefix _ _
  · rw [size]
    omega
  · have shorter : min lim.toNat e.content.length < e.content.length ↔
        lim < e.content.length := by omega
    simp [Value.lookup?, Value.field?, size, shorter]

/-! ## Taking files in their order -/

/-- The entries that a plan takes, in their order. -/
def taken (plan : List (SourceEntry × Bool)) : List SourceEntry :=
  (plan.filter Prod.snd).map Prod.fst

/-- What is taken fits, and what is left out did not fit behind what was taken before it. -/
structure Greedy (limit : Int) (weight : SourceEntry → Nat) (used : Nat)
    (plan : List (SourceEntry × Bool)) : Prop where
  fits : (used + ((taken plan).map weight).sum : Int) ≤ limit
  full : ∀ front entry back, plan = front ++ (entry, false) :: back →
    limit < used + ((taken front).map weight).sum + weight entry

variable {lim : Int} {weight : SourceEntry → Nat} {used : Nat} {e : SourceEntry}
  {plan : List (SourceEntry × Bool)}

theorem Greedy.skip (greedy : Greedy lim weight used plan)
    (heavy : lim < used + weight e) : Greedy lim weight used ((e, false) :: plan) where
  fits := greedy.fits
  full pre other back divided := by
    cases pre with
    | nil =>
      cases divided
      simpa [taken] using heavy
    | cons a pre =>
      cases divided
      exact greedy.full pre other back rfl

theorem Greedy.take (greedy : Greedy lim weight (used + weight e) plan) :
    Greedy lim weight used ((e, true) :: plan) where
  fits := by
    have fits := greedy.fits
    rw [taken, filter_cons_of_pos rfl, map_cons, map_cons, sum_cons]
    rw [taken] at fits
    push_cast at fits ⊢
    omega
  full pre other back divided := by
    cases pre with
    | nil => cases divided
    | cons a pre =>
      cases divided
      have full := greedy.full pre other back rfl
      rw [taken, filter_cons_of_pos rfl, map_cons, map_cons, sum_cons]
      rw [taken] at full
      push_cast at full ⊢
      omega

theorem exists_greedy {copy : SourceEntry → Value} (weight : SourceEntry → Nat) (bounded : lim ≠ 0)
    (weighed : ∀ e, ∃ ln, Json.line (copy e) = .ok ln ∧ weight e = ln.length)
    (es : List SourceEntry) (used : Nat) (room : used ≤ lim) :
    ∃ plan, plan.map Prod.fst = es ∧ Greedy lim weight used plan ∧
      fitting lim used (es.map copy) = .ok ((taken plan).map copy) := by
  induction es generalizing used with
  | nil => exact ⟨[], rfl, ⟨by simpa [taken] using room, by simp⟩, rfl⟩
  | cons e tl ih =>
    obtain ⟨ln, lined, size⟩ := weighed e
    rw [map_cons, fitting, bind_ok lined]
    dsimp only
    rw [← size, bne_iff_ne.mpr bounded, Bool.true_and, Int.ofNat_eq_natCast, Nat.cast_add]
    split
    · next heavy =>
      obtain ⟨plan, hs, greedy, hd⟩ := ih used room
      exact ⟨(e, false) :: plan, congrArg (e :: ·) hs, greedy.skip (of_decide_eq_true heavy), hd⟩
    · next light =>
      have within : ((used + weight e : Nat) : Int) ≤ lim := by
        simpa using light
      obtain ⟨plan, hs, greedy, hd⟩ := ih _ within
      exact ⟨(e, true) :: plan, congrArg (e :: ·) hs, greedy.take, bind_ok hd⟩

theorem exists_line_sentFile (each : Int) (e : SourceEntry) :
    ∃ ln, Json.line (sentFile each e) = .ok ln :=
  (Json.complete_write_isOk .line 0 _).mpr (Json.writable_of_isPlain _ (isPlain_sentFile each e))

/-- The files of a request are copies of some of the entries, in their order.  Their written forms fit
together, and an entry is missing only if it did not fit behind those taken before it. -/
theorem payload_takes_files_greedily {settings : Value} {total each findings : Int}
    (bounded : integerSetting settings "max_chars" 12000 = .ok total) (room : 0 < total)
    (clipped : integerSetting settings "max_file_chars" 4000 = .ok each) (filled : 0 < each)
    (counted : integerSetting settings "max_findings" 10 = .ok findings)
    (entries : List SourceEntry) (summary : Value) :
    ∃ payload plan weight, projectPayload entries summary settings = .ok payload ∧
      plan.map Prod.fst = entries ∧
        payload.lookup? "files" = some (.list ((taken plan).map (sentFile each))) ∧
          (∀ entry, Copies each entry (sentFile each entry) ∧
            ∃ line, Json.line (sentFile each entry) = .ok line ∧ weight entry = line.length) ∧
            Greedy total weight 0 plan := by
  choose line lined using exists_line_sentFile each
  let weight (entry : SourceEntry) : Nat := (line entry).length
  obtain ⟨plan, same, greedy, fitted⟩ := exists_greedy weight room.ne'
    (fun entry => ⟨line entry, lined entry, rfl⟩) entries 0 (by exact_mod_cast room.le)
  obtain ⟨stated, statedRead, _⟩ := bind_eq_ok.mp counted
  obtain ⟨required, requiredRead⟩ : ∃ required,
      settings.getD "evidence_required" (.bool true) = .ok required := by
    cases settings with
    | record fields => exact ⟨_, rfl⟩
    | table fields => exact ⟨_, rfl⟩
    | _ => cases statedRead
  refine ⟨analysisDocument entries.length ((taken plan).map (sentFile each)) summary required.truthy
    findings, plan, weight, ?_, same, by simp [analysisDocument, Value.lookup?, Value.field?],
    fun entry => ⟨copies_sentFile filled entry, line entry, lined entry, rfl⟩, greedy⟩
  rw [projectPayload, bind_ok bounded, bind_ok clipped, bind_ok fitted, bind_ok requiredRead,
    bind_ok counted]
  rfl

def narrowSettings : Value :=
  .record [("max_chars", .int 80), ("max_file_chars", .int 2)]

def wideEntries : List SourceEntry :=
  ["a.py", "b.py"].map fun path => { path, language := none, content := "x = 1", lines := ["x = 1"] }

/-- Two files of which the copy of one has room. -/
theorem payload_takes_files_greedily_of_wide :
    ∃ payload plan weight, projectPayload wideEntries .null narrowSettings = .ok payload ∧
      plan.map Prod.fst = wideEntries ∧
        payload.lookup? "files" = some (.list ((taken plan).map (sentFile 2))) ∧
          Greedy 80 weight 0 plan := by
  obtain ⟨payload, plan, weight, made, same, files, _, greedy⟩ :=
    @payload_takes_files_greedily narrowSettings 80 2 10 (by cbv) (by decide) (by cbv) (by decide)
      (by cbv) wideEntries .null
  exact ⟨payload, plan, weight, made, same, files, greedy⟩

end SourceAudit.Agent
