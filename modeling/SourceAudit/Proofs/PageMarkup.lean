import SourceAudit.Report.Html
import SourceAudit.Proofs.Computation
import SourceAudit.Proofs.WrittenForms
import Mathlib.Algebra.BigOperators.Group.List.Basic
import Mathlib.Algebra.GroupWithZero.Nat

/-!
# Markup in pages

The page of a single file shows texts of the analysed program: those in the evidence of a threat and
the descriptions of matched vulnerabilities.
-/

open List

namespace SourceAudit.Report.Html

/-! ## Tag openings -/

def openings (t : String) : Nat :=
  t.toList.count '<'

@[simp]
theorem openings_append (pre t : String) : openings (pre ++ t) = openings pre + openings t := by
  rw [openings, String.toList_append, count_append]
  rfl

@[simp]
theorem openings_join (texts : List String) :
    openings (String.join texts) = (texts.map openings).sum := by
  rw [openings, String.toList_join, count_flatMap]
  rfl

@[simp]
theorem openings_joinLines (ls : List String) :
    openings (joinLines ls) = (ls.map openings).sum := by
  rw [joinLines]
  induction ls with
  | nil => rfl
  | cons ln tl ih =>
    cases tl with
    | nil => simp
    | cons next tl =>
      have he : openings "\n" = 0 := by decide
      rw [String.intercalate_cons_cons, openings_append, openings_append, ih]
      rfl

def Gains (n : Nat) (plain full : String) : Prop :=
  openings full = openings plain + n

theorem Gains.refl (t : String) : Gains 0 t t := rfl

theorem Gains.append {a b : Nat} {plain full plainNext fullNext : String}
    (gains : Gains a plain full) (next : Gains b plainNext fullNext) :
    Gains (a + b) (plain ++ plainNext) (full ++ fullNext) := by
  rw [Gains] at gains next ⊢
  rw [openings_append, openings_append]
  omega

theorem Gains.append_left {n : Nat} {plain full : String} (gains : Gains n plain full)
    (pre : String) : Gains n (pre ++ plain) (pre ++ full) := by
  have parts := (Gains.refl pre).append gains
  rwa [Nat.zero_add] at parts

theorem Gains.append_right {n : Nat} {plain full : String} (gains : Gains n plain full)
    (back : String) : Gains n (plain ++ back) (full ++ back) :=
  gains.append (Gains.refl back)

structure AllGain (count : Nat) (plain full : List String) : Prop where
  length : plain.length = full.length
  openings : (full.map openings).sum = (plain.map openings).sum + count

namespace AllGain

variable {a b n : Nat} {plain full : List String}

theorem refl (texts : List String) : AllGain 0 texts texts := ⟨rfl, rfl⟩

theorem cons {plainText fullText : String} (gains : Gains a plainText fullText)
    (rest : AllGain b plain full) : AllGain (a + b) (plainText :: plain) (fullText :: full) := by
  constructor
  · exact congrArg Nat.succ rest.length
  · rw [map_cons, map_cons, sum_cons, sum_cons, gains, rest.openings]
    omega

theorem append_left (lines : AllGain n plain full) (pre : List String) :
    AllGain n (pre ++ plain) (pre ++ full) := by
  induction pre with
  | nil => exact lines
  | cons ln pre ih =>
    have longer := cons (Gains.refl ln) ih
    rwa [Nat.zero_add] at longer

theorem append_right (lines : AllGain n plain full) (back : List String) :
    AllGain n (plain ++ back) (full ++ back) := by
  constructor
  · rw [length_append, length_append, lines.length]
  · rw [map_append, map_append, sum_append, sum_append, lines.openings]
    omega

theorem among {plainText fullText : String} (gains : Gains n plainText fullText)
    (pre back : List String) : AllGain n (pre ++ plainText :: back) (pre ++ fullText :: back) :=
  (cons gains (refl back)).append_left pre

theorem join (lines : AllGain n plain full) : Gains n (String.join plain) (String.join full) := by
  rw [Gains, openings_join, openings_join]
  exact lines.openings

theorem joinLines (lines : AllGain n plain full) :
    Gains n (Html.joinLines plain) (Html.joinLines full) := by
  rw [Gains, openings_joinLines, openings_joinLines]
  exact lines.openings

end AllGain

end SourceAudit.Report.Html

namespace SourceAudit.Value

/-! ## Texts in values -/

mutual

def blanked : Value → Value
  | .text _ => .text ""
  | .list xs => .list (blankedItems xs)
  | .tuple xs => .tuple (blankedItems xs)
  | .record fs => .record (blankedFields fs)
  | .table es => .table (blankedEntries es)
  | other => other

def blankedItems : List Value → List Value
  | [] => []
  | x :: tl => blanked x :: blankedItems tl

def blankedFields : List (String × Value) → List (String × Value)
  | [] => []
  | (k, v) :: tl => (k, blanked v) :: blankedFields tl

def blankedEntries : List (Value × Value) → List (Value × Value)
  | [] => []
  | (k, v) :: tl => (k, blanked v) :: blankedEntries tl

end

mutual

def openings : Value → Nat
  | .text c => Report.Html.openings c
  | .list xs => openingsItems xs
  | .tuple xs => openingsItems xs
  | .record fs => openingsFields fs
  | .table es => openingsEntries es
  | _ => 0

def openingsItems : List Value → Nat
  | [] => 0
  | x :: tl => openings x + openingsItems tl

def openingsFields : List (String × Value) → Nat
  | [] => 0
  | (_, v) :: tl => openings v + openingsFields tl

def openingsEntries : List (Value × Value) → Nat
  | [] => 0
  | (_, v) :: tl => openings v + openingsEntries tl

end

end SourceAudit.Value

namespace SourceAudit.Json

open SourceAudit.Report.Html (Gains)

/-! ## Written values -/

theorem count_encodeChar (c : Char) : (encodeChar c).count '<' = [c].count '<' := by
  induction c using encodeChar_induction with
  | control n small => decide +revert
  | quote => rfl
  | backslash => rfl
  | plain c hs => rw [hs]

theorem count_encoded (t : List Char) : (t.flatMap encodeChar).count '<' = t.count '<' := by
  induction t with
  | nil => rfl
  | cons c tl ih =>
    rw [flatMap_cons, count_append, count_encodeChar, ih, ← count_append, singleton_append]

theorem openings_quote (c : String) : Report.Html.openings (quote c) = Report.Html.openings c := by
  rw [Report.Html.openings, quote, String.toList_ofList, cons_append, count_cons,
    count_append, count_encoded]
  rfl

structure Written.Gains (count : Nat) (plain full : Written) : Prop where
  fault : plain.fault = full.fault
  text : full.fault = none → Report.Html.Gains count plain.text full.text

namespace Written

theorem Gains.refl (written : Written) : Gains 0 written written := ⟨rfl, fun _ => rfl⟩

variable {plainNext fullNext : Written}

theorem Gains.andThen {a b : Nat} {plain full : Written} (gains : Gains a plain full)
    (next : Gains b plainNext fullNext) :
    Gains (a + b) (plain.andThen fun _ => plainNext) (full.andThen fun _ => fullNext) := by
  rw [Written.andThen, Written.andThen, gains.fault]
  cases he : full.fault with
  | some err =>
    refine ⟨gains.fault, fun none => ?_⟩
    rw [he] at none
    cases none
  | none =>
    refine ⟨next.fault, fun none => ?_⟩
    have front := gains.text he
    have back := next.text none
    rw [Report.Html.Gains] at front back ⊢
    rw [Report.Html.openings_append, Report.Html.openings_append]
    omega

theorem Gains.continued {a b : Nat} {plain full : Written} (pre : Written)
    (gains : Gains a plain full) (next : Gains b plainNext fullNext) :
    Gains (a + b) ((pre.andThen fun _ => plain).andThen fun _ => plainNext)
      ((pre.andThen fun _ => full).andThen fun _ => fullNext) := by
  have parts := ((Gains.refl pre).andThen gains).andThen next
  rwa [Nat.zero_add] at parts

theorem Gains.enclosed {a b : Nat} {plain full : Written} (pre back : Written)
    (gains : Gains a plain full) (next : Gains b plainNext fullNext) :
    Gains (a + b) (((pre.andThen fun _ => plain).andThen fun _ => plainNext).andThen fun _ => back)
      (((pre.andThen fun _ => full).andThen fun _ => fullNext).andThen fun _ => back) :=
  (gains.continued pre next).andThen (Gains.refl back)

end Written

mutual

theorem gains_write (lay : Layout) (d : Nat) : (v : Value) →
    Written.Gains v.openings (write lay d v.blanked) (write lay d v)
  | .null | .bool _ | .int _ | .float _ | .bytes _ | .code _ | .spelled _ _ | .list [] | .tuple []
  | .record [] | .table [] => Written.Gains.refl _
  | .text c => by
    rw [Value.blanked, write, write]
    constructor
    · rw [Written.fault_done, Written.fault_done]
    · intro _
      show Report.Html.openings (quote c) = Report.Html.openings (quote "") + _
      rw [openings_quote]
      exact (Nat.zero_add _).symm
  | .list (x :: tl) | .tuple (x :: tl) => by
    exact (gains_write lay (d + 1) x).enclosed _ _ (gains_writeItems lay (d + 1) tl)
  | .record ((k, v) :: tl) => by
    exact (gains_write lay (d + 1) v).enclosed _ _ (gains_writeFields lay (d + 1) tl)
  | .table ((k, v) :: tl) => by
    rw [Value.blanked, Value.blankedEntries, write, write]
    cases keyText k with
    | error err => exact ⟨rfl, fun he => absurd he (Option.some_ne_none err)⟩
    | ok nm =>
      exact (gains_write lay (d + 1) v).enclosed _ _ (gains_writeEntries lay (d + 1) tl)

theorem gains_writeItems (lay : Layout) (d : Nat) : (xs : List Value) →
    Written.Gains (Value.openingsItems xs) (writeItems lay d (Value.blankedItems xs))
      (writeItems lay d xs)
  | [] => Written.Gains.refl _
  | x :: tl => by
    exact (gains_write lay d x).continued _ (gains_writeItems lay d tl)

theorem gains_writeFields (lay : Layout) (d : Nat) : (fs : List (String × Value)) →
    Written.Gains (Value.openingsFields fs)
      (writeFields lay d (Value.blankedFields fs)) (writeFields lay d fs)
  | [] => Written.Gains.refl _
  | (k, v) :: tl => by
    exact (gains_write lay d v).continued _ (gains_writeFields lay d tl)

theorem gains_writeEntries (lay : Layout) (d : Nat) : (es : List (Value × Value)) →
    Written.Gains (Value.openingsEntries es) (writeEntries lay d (Value.blankedEntries es))
      (writeEntries lay d es)
  | [] => Written.Gains.refl _
  | (k, v) :: tl => by
    rw [Value.blankedEntries, writeEntries, writeEntries]
    cases keyText k with
    | error err => exact ⟨rfl, fun he => absurd he (Option.some_ne_none err)⟩
    | ok nm =>
      exact (gains_write lay d v).continued _ (gains_writeEntries lay d tl)

end

end SourceAudit.Json

namespace SourceAudit.Outcome

/-! ## Two computations side by side -/

inductive Alike {α β : Type} (related : α → β → Prop) : Outcome α → Outcome β → Prop
  | error (err : Fault) : Alike related (.error err) (.error err)
  | ok {l : α} {r : β} (results : related l r) :
      Alike related (.ok l) (.ok r)

section Alike

variable {α β γ δ : Type} {related : α → β → Prop} {follows : γ → δ → Prop}
  {l : Outcome α} {r : Outcome β}

theorem Alike.bind {leftNext : α → Outcome γ} {rightNext : β → Outcome δ} (h1 : Alike related l r)
    (next : ∀ before after, l = .ok before → r = .ok after → related before after →
      Alike follows (leftNext before) (rightNext after)) :
    Alike follows (l >>= leftNext) (r >>= rightNext) := by
  cases h1 with
  | error err => exact Alike.error err
  | ok results => exact next _ _ rfl rfl results

theorem Alike.bind_same {a : Outcome α} {leftNext : α → Outcome γ} {rightNext : α → Outcome δ}
    (next : ∀ v, a = .ok v → Alike follows (leftNext v) (rightNext v)) :
    Alike follows (a >>= leftNext) (a >>= rightNext) := by
  cases a with
  | error err => exact Alike.error err
  | ok v => exact next v rfl

theorem Alike.refl {related : α → α → Prop} (reflexive : ∀ v, related v v)
    (a : Outcome α) : Alike related a a := by
  cases a with
  | error err => exact Alike.error err
  | ok v => exact Alike.ok (reflexive v)

theorem Alike.meet {mid : Outcome γ} {before : γ → α → Prop} {after : γ → β → Prop}
    (h1 : Alike before mid l) (h2 : Alike after mid r) :
    Alike (fun one other => ∃ v, before v one ∧ after v other) l r := by
  cases h1 with
  | error err =>
    cases h2 with
    | error => exact Alike.error err
  | ok one =>
    cases h2 with
    | ok other => exact Alike.ok ⟨_, one, other⟩

theorem alike_map (change : α → β) (a : Outcome α) :
    Alike (fun changed v => changed = change v) (a.map change) a := by
  cases a with
  | error err => exact Alike.error err
  | ok v => exact Alike.ok rfl

end Alike

end SourceAudit.Outcome

namespace SourceAudit.Value

/-! ## Changed documents -/

def amend (k : String) (change : Value → Value) : Value → Value
  | .record fs =>
    .record (fs.map fun e =>
      (e.1, if e.1 = k then change e.2 else e.2))
  | other => other

def amendItems (change : Value → Value) : Value → Value
  | .list xs => .list (xs.map change)
  | .tuple xs => .tuple (xs.map change)
  | other => other

def sequence : Value → List Value
  | .list xs => xs
  | .tuple xs => xs
  | _ => []

def under (doc : Value) (k : String) : Value :=
  (doc.lookup? k).getD .null

section Amend

variable {k other : String} {change : Value → Value}

theorem field?_amend (fs : List (String × Value)) :
    field? other (fs.map fun e =>
        (e.1, if e.1 = k then change e.2 else e.2)) =
      (field? other fs).map fun v => if other = k then change v else v := by
  rw [field?, field?, find?_map, Option.map_map, Option.map_map]
  refine Option.map_congr fun e hf => ?_
  have hn : e.1 = other := by simpa using find?_some hf
  simp [hn]

theorem getD_amend_same (doc : Value) {missing : Value} (kept : change missing = missing) :
    (doc.amend k change).getD k missing = (doc.getD k missing).map change := by
  cases doc with
  | record fs =>
    show Except.ok ((field? k (fs.map _)).getD missing) = _
    rw [field?_amend]
    cases hf : field? k fs with
    | none => simp [getD, Except.map, hf, kept]
    | some v => simp [getD, Except.map, hf]
  | table es => exact congrArg Except.ok kept.symm
  | _ => rfl

theorem getD_amend_other (differs : other ≠ k) (doc missing : Value) :
    (doc.amend k change).getD other missing = doc.getD other missing := by
  cases doc with
  | record fs =>
    show Except.ok ((field? other (fs.map _)).getD missing) = _
    simp [field?_amend, differs, getD]
  | _ => rfl

theorem truthy_amend (doc : Value) : (doc.amend k change).truthy = doc.truthy := by
  cases doc with
  | record fs => cases fs <;> rfl
  | _ => rfl

theorem truthy_amendItems (doc : Value) : (doc.amendItems change).truthy = doc.truthy := by
  cases doc with
  | list xs | tuple xs => cases xs <;> rfl
  | _ => rfl

theorem amendItems_cases (change : Value → Value) (doc : Value) :
    (∃ xs, doc = .list xs ∨ doc = .tuple xs) ∨ doc.amendItems change = doc ∧ doc.sequence = [] := by
  cases doc with
  | list xs => exact Or.inl ⟨xs, Or.inl rfl⟩
  | tuple xs => exact Or.inl ⟨xs, Or.inr rfl⟩
  | _ => exact Or.inr ⟨rfl, rfl⟩

theorem view_of_getD {α : Type} {doc v missing : Value} (view : Value → α)
    (hf : doc.getD k missing = .ok v) (absent : view missing = view .null) :
    view v = view (doc.under k) := by
  cases doc with
  | record fs =>
    cases hf
    rw [under, lookup?]
    cases field? k fs with
    | none => exact absent
    | some v => rfl
  | table es =>
    cases hf
    exact absent
  | _ => cases hf

theorem orElse_change {doc fallback : Value}
    (truthy : (change doc).truthy = doc.truthy) (kept : change fallback = fallback) :
    (change doc).orElse fallback = change (doc.orElse fallback) := by
  rw [orElse, orElse, truthy]
  split_ifs
  · rfl
  · exact kept.symm

theorem sequence_orElse (doc : Value) : (doc.orElse (.list [])).sequence = doc.sequence := by
  rw [orElse]
  split_ifs with truthy
  · rfl
  · cases doc with
    | list xs | tuple xs =>
      cases xs with
      | nil => rfl
      | cons x tl => exact absurd rfl truthy
    | _ => rfl

theorem under_orElse (doc : Value) : (doc.orElse (.record [])).under k = doc.under k := by
  rw [orElse]
  split_ifs with truthy
  · rfl
  · cases doc with
    | record fs =>
      cases fs with
      | nil => rfl
      | cons fld tl => exact absurd rfl truthy
    | _ => rfl

end Amend

end SourceAudit.Value

namespace SourceAudit.Report.Html

open Outside
open SourceAudit.Outcome (Alike)
open SourceAudit.Value (amend amendItems)

/-! ## Results without the texts of the analysed program -/

def maskedDescription : Value → Value
  | .text _ => .text ""
  | other => other

def maskedThreat (th : Value) : Value :=
  th.amend "evidence" (amendItems Value.blanked)

def maskedVulnerability (f : Value) : Value :=
  f.amend "description" maskedDescription

def maskedFindings (fnds : Value) : Value :=
  (((fnds.amend "pattern_matches" (amendItems Value.blanked)).amend "taint_flows"
    (amendItems Value.blanked)).amend "cfg_structures" (amendItems Value.blanked)).amend
    "cve_matches" (amendItems maskedVulnerability)

def masked (data : Value) : Value :=
  ((data.amend "threats" (amendItems maskedThreat)).amend "static_results" maskedFindings).amend
    "aggregated_results" (amend "static" maskedFindings)

/-! ## Openings in shown texts -/

def evidenceOpenings (th : Value) : Nat :=
  (((th.under "evidence").sequence.take evidenceShown).map Value.openings).sum

def ownOpenings : Value → Nat
  | .text c => openings c
  | _ => 0

def descriptionOpenings (f : Value) : Nat :=
  ownOpenings (f.under "description")

def shownFindings (data : Value) : Value :=
  (data.under "static_results").orElse ((data.under "aggregated_results").under "static")

def textOpenings (data : Value) : Nat :=
  ((data.under "threats").sequence.map evidenceOpenings).sum +
    (((shownFindings data).under "cve_matches").sequence.map descriptionOpenings).sum

/-! ## Parts of a page -/

theorem alike_mapM {α : Type} {plainStep step : α → Outcome String} (weight : α → Nat)
    (each : ∀ x, Alike (Gains (weight x)) (plainStep x) (step x)) (xs : List α) :
    Alike (AllGain (xs.map weight).sum) (xs.mapM plainStep) (xs.mapM step) := by
  induction xs with
  | nil => exact Alike.ok (AllGain.refl [])
  | cons x tl ih =>
    rw [mapM_cons, mapM_cons]
    apply (each x).bind
    intro plain full _ _ gains
    apply ih.bind
    intro plainRest fullRest _ _ allGain
    exact Alike.ok (AllGain.cons gains allGain)

theorem alike_indented (piece : Value) :
    Alike (Gains piece.openings) (Json.indented piece.blanked) (Json.indented piece) := by
  have gains := Json.gains_write .indented 0 piece
  rw [Json.indented, Json.indented, Json.Written.complete, Json.Written.complete, gains.fault]
  cases he : (Json.write .indented 0 piece).fault with
  | some err => exact Alike.error err
  | none => exact Alike.ok (gains.text he)

theorem shown_amend_other {k other : String} {change : Value → Value} (differs : other ≠ k)
    (doc missing : Value) : shown (doc.amend k change) other missing = shown doc other missing := by
  rw [shown, shown, Value.getD_amend_other differs]

theorem threatRow_maskedThreat (th : Value) : threatRow (maskedThreat th) = threatRow th := by
  have ho : ∀ {k missing}, k ≠ "evidence" →
      (maskedThreat th).getD k missing = th.getD k missing := by
    intro k missing differs
    exact Value.getD_amend_other differs th missing
  rw [threatRow, threatRow, lineList, lineList, shown, shown, shown, shown, ho (by decide),
    ho (by decide), ho (by decide), ho (by decide)]

theorem alike_piece (piece : Value) :
    Alike (Gains piece.openings)
      (do return "<div>" ++ (← Json.indented piece.blanked) ++ "</div><br>")
      (do return "<div>" ++ (← Json.indented piece) ++ "</div><br>") := by
  apply (alike_indented piece).bind
  intro plain full _ _ gains
  exact Alike.ok ((gains.append_left "<div>").append_right "</div><br>")

theorem alike_evidenceBlock (n : Nat) (th : Value) :
    Alike (Gains (evidenceOpenings th)) (evidenceBlock n (maskedThreat th))
      (evidenceBlock n th) := by
  rw [evidenceBlock, maskedThreat, shown_amend_other (by decide), Value.getD_amend_same th rfl]
  apply Alike.bind_same
  intro k _
  apply (Outcome.alike_map _ _).bind
  rintro _ ev _ hr rfl
  rw [evidenceOpenings, ← Value.view_of_getD Value.sequence hr rfl]
  rcases Value.amendItems_cases Value.blanked ev with sequence | ⟨hs, none⟩
  · have pieces : ∀ xs : List Value,
        Alike (AllGain ((xs.take evidenceShown).map Value.openings).sum)
          (((xs.map Value.blanked).take evidenceShown).mapM fun piece => do
            return "<div>" ++ (← Json.indented piece) ++ "</div><br>")
          ((xs.take evidenceShown).mapM fun piece => do
            return "<div>" ++ (← Json.indented piece) ++ "</div><br>") := by
      intro xs
      rw [← map_take, mapM_map]
      exact alike_mapM Value.openings alike_piece (xs.take evidenceShown)
    rcases sequence with ⟨xs, rfl | rfl⟩ <;>
      exact (pieces xs).bind fun _ _ _ _ allGain =>
        Alike.ok (AllGain.among allGain.join [_, _, _] _).joinLines
  · rw [hs, none]
    exact Alike.refl Gains.refl _

theorem alike_description (f : Value) :
    Alike (Gains (descriptionOpenings f)) (shown (maskedVulnerability f) "description" (.text ""))
      (shown f "description" (.text "")) := by
  rw [shown, maskedVulnerability, Value.getD_amend_same f rfl]
  apply (Outcome.alike_map _ _).bind
  rintro _ desc _ hr rfl
  apply Alike.ok
  rw [descriptionOpenings, ← Value.view_of_getD ownOpenings hr rfl]
  cases desc with
  | text c => exact (Nat.zero_add _).symm
  | _ => exact Gains.refl _

theorem alike_vulnerabilityRow (f : Value) :
    Alike (Gains (descriptionOpenings f))
      (do return row (← vulnerabilityCells (maskedVulnerability f)))
      (do return row (← vulnerabilityCells f)) := by
  have ho : ∀ k missing, k ≠ "description" →
      shown (maskedVulnerability f) k missing = shown f k missing := by
    intro k missing differs
    exact shown_amend_other differs f missing
  rw [vulnerabilityCells, vulnerabilityCells, ho "cve_id" _ (by decide),
    ho "severity" _ (by decide), ho "fixed_version" _ (by decide),
    ho "source" _ (by decide), ho "reference_url" _ (by decide)]
  simp only [bind_assoc]
  apply Alike.bind_same
  intro nm _
  apply (alike_description f).bind
  intro plain full _ _ gains
  refine .bind_same fun sev _ => .bind_same fun fixed _ => .bind_same fun src _ =>
    .bind_same fun link _ => Alike.ok ?_
  have described := (gains.append_left "<td>").append_right "</td>"
  exact ((AllGain.among described [cell nm] _).join.append_left "<tr>").append_right "</tr>"

theorem countOf_amendItems (change : Value → Value) (v : Value) :
    countOf (v.amendItems change) = countOf v := by
  cases v with
  | list xs => exact congrArg Value.ofNat (length_map _)
  | _ => rfl

theorem getD_maskedFindings_other {k : String} (fnds missing : Value)
    (differs : k ∉ ["pattern_matches", "taint_flows", "cfg_structures", "cve_matches"]) :
    (maskedFindings fnds).getD k missing = fnds.getD k missing := by
  simp only [mem_cons, not_mem_nil, or_false, not_or] at differs
  rcases differs with ⟨patterns, flows, structures, vulnerabilities⟩
  rw [maskedFindings, Value.getD_amend_other vulnerabilities, Value.getD_amend_other structures,
    Value.getD_amend_other flows, Value.getD_amend_other patterns]

theorem getD_maskedFindings_matches (fnds : Value) :
    (maskedFindings fnds).getD "cve_matches" (.list []) =
      (fnds.getD "cve_matches" (.list [])).map (amendItems maskedVulnerability) := by
  rw [maskedFindings, Value.getD_amend_same _ rfl, Value.getD_amend_other (by decide),
    Value.getD_amend_other (by decide), Value.getD_amend_other (by decide)]

theorem truthy_maskedFindings (fnds : Value) : (maskedFindings fnds).truthy = fnds.truthy := by
  rw [maskedFindings, Value.truthy_amend, Value.truthy_amend, Value.truthy_amend,
    Value.truthy_amend]

theorem countField_amend_same (k : String) (change : Value → Value) (fnds : Value) :
    countField (fnds.amend k (amendItems change)) k = countField fnds k := by
  rw [countField, countField, Value.getD_amend_same _ rfl]
  cases fnds.getD k (.list []) with
  | error err => rfl
  | ok v =>
    show Except.ok (k, countOf (v.amendItems change)) = _
    rw [countOf_amendItems]
    rfl

theorem countField_amend_other {k other : String} (differs : other ≠ k)
    (change : Value → Value) (fnds : Value) :
    countField (fnds.amend k change) other = countField fnds other := by
  rw [countField, countField, Value.getD_amend_other differs]

theorem countField_maskedFindings {k : String} (fnds : Value)
    (hc : k ∈ ["pattern_matches", "taint_flows", "cfg_structures", "cve_matches"]) :
    countField (maskedFindings fnds) k = countField fnds k := by
  simp only [mem_cons, not_mem_nil, or_false] at hc
  rw [maskedFindings]
  rcases hc with rfl | rfl | rfl | rfl
  · rw [countField_amend_other (by decide), countField_amend_other (by decide),
      countField_amend_other (by decide), countField_amend_same]
  · rw [countField_amend_other (by decide), countField_amend_other (by decide),
      countField_amend_same, countField_amend_other (by decide)]
  · rw [countField_amend_other (by decide), countField_amend_same,
      countField_amend_other (by decide), countField_amend_other (by decide)]
  · rw [countField_amend_same, countField_amend_other (by decide),
      countField_amend_other (by decide), countField_amend_other (by decide)]

theorem staticSummary_maskedFindings (fnds : Value) :
    staticSummary (maskedFindings fnds) = staticSummary fnds := by
  rw [staticSummary, staticSummary, Value.orElse_change (truthy_maskedFindings fnds) rfl,
    getD_maskedFindings_other _ _ (by decide)]
  simp only [mapM_cons, mapM_nil]
  rw [countField_maskedFindings _ (by decide), countField_maskedFindings _ (by decide),
    countField_maskedFindings _ (by decide), countField_maskedFindings _ (by decide)]

theorem getD_masked_other {k : String} (data missing : Value)
    (differs : k ∉ ["threats", "static_results", "aggregated_results"]) :
    (masked data).getD k missing = data.getD k missing := by
  simp only [mem_cons, not_mem_nil, or_false, not_or] at differs
  rcases differs with ⟨threats, static, aggregated⟩
  rw [masked, Value.getD_amend_other aggregated, Value.getD_amend_other static,
    Value.getD_amend_other threats]

theorem alike_sourcesOf (data agg : Value) :
    Alike (fun plain full => plain = { full with static := maskedFindings full.static })
      (sourcesOf (masked data) (agg.amend "static" maskedFindings)) (sourcesOf data agg) := by
  have static : Alike (fun plain full => plain = maskedFindings full) (do
        let fnds ← (masked data).get "static_results" if fnds.truthy then return fnds
        else (agg.amend "static" maskedFindings).getD "static" (.record []))
      (do
        let fnds ← data.get "static_results"
        if fnds.truthy then return fnds else agg.getD "static" (.record [])) := by
    rw [Value.get, masked, Value.getD_amend_other (by decide), Value.getD_amend_same _ rfl,
      Value.getD_amend_other (by decide), Value.getD_amend_same _ rfl]
    apply (Outcome.alike_map _ _).bind
    rintro _ fnds _ _ rfl
    rw [truthy_maskedFindings]
    split_ifs
    · exact Alike.ok rfl
    · exact Outcome.alike_map _ _
  have dynamic : (masked data).get "dynamic_results" = data.get "dynamic_results" :=
    getD_masked_other data .null (by decide)
  rw [sourcesOf]
  dsimp only
  rw [dynamic, Value.getD_amend_other (show "dynamic" ≠ "static" by decide)]
  apply static.bind
  rintro _ fnds _ _ rfl
  rw [staticSummary_maskedFindings]
  exact .bind_same fun dynamic _ => .bind_same fun sum _ => .bind_same fun dynamicSummary _ =>
    Alike.ok rfl

theorem under_static_of_sourcesOf {data agg : Value} {srcs : Sources}
    (hr : sourcesOf data agg = .ok srcs) (k : String) :
    srcs.static.under k = ((data.under "static_results").orElse (agg.under "static")).under k := by
  rw [sourcesOf] at hr
  simp only [Outcome.bind_eq_ok] at hr
  obtain ⟨static, ⟨fnds, hf, chosen⟩, _, _, _, _, _, _, made⟩ := hr
  cases made
  have hs : fnds = data.under "static_results" := Value.view_of_getD id hf rfl
  rw [← hs, Value.orElse]
  split_ifs at chosen ⊢
  · cases chosen
    rfl
  · exact Value.view_of_getD (Value.under · k) chosen rfl

theorem alike_vulnerabilities (fnds : Value) :
    Alike (fun plain full =>
        Alike (AllGain ((fnds.under "cve_matches").sequence.map descriptionOpenings).sum)
          (plain.mapM fun f => do return row (← vulnerabilityCells f))
          (full.mapM fun f => do return row (← vulnerabilityCells f)))
      (vulnerabilities (maskedFindings fnds)) (vulnerabilities fnds) := by
  rw [vulnerabilities, getD_maskedFindings_matches]
  apply (Outcome.alike_map _ _).bind
  rintro _ listed _ hr rfl
  rw [Value.orElse_change (Value.truthy_amendItems listed) rfl,
    ← Value.view_of_getD Value.sequence hr rfl, ← Value.sequence_orElse]
  rcases Value.amendItems_cases maskedVulnerability (listed.orElse (.list [])) with
    ⟨xs, hs⟩ | ⟨hs, none⟩
  · rcases hs with hs | hs <;> rw [hs] <;> refine Alike.ok ?_ <;> rw [mapM_map] <;>
      exact alike_mapM descriptionOpenings alike_vulnerabilityRow xs
  · rw [hs, none]
    apply Alike.refl
    intro xs
    exact Alike.refl AllGain.refl _

theorem AllGain.titledTable {n : Nat} {plain full : List String}
    (allGain : AllGain n plain full) (title : String) (titles : List String) :
    Gains n (Html.titledTable title titles plain) (Html.titledTable title titles full) := by
  have openings := allGain.openings
  have length := allGain.length
  cases full with
  | nil =>
    cases eq_nil_of_length_eq_zero length
    exact openings
  | cons row tl =>
    cases plain with
    | nil => cases length
    | cons plainRow plainRest =>
      have rows := (allGain.join.append_left
        ("<table><thead>" ++ headRow titles ++ "</thead><tbody>")).append_right
        "</tbody></table>"
      exact rows.append_left (heading title)

theorem alike_threats (ths : Value) :
    Alike (fun plain full => plain.mapM threatRow = full.mapM threatRow ∧
        Alike (AllGain (ths.sequence.map evidenceOpenings).sum)
          (plain.zipIdx.mapM fun (th, pos) => evidenceBlock (pos + 1) th)
          (full.zipIdx.mapM fun (th, pos) => evidenceBlock (pos + 1) th))
      (ths.amendItems maskedThreat).items ths.items := by
  have changed : ∀ xs : List Value, (xs.map maskedThreat).mapM threatRow = xs.mapM threatRow ∧
        Alike (AllGain (xs.map evidenceOpenings).sum)
          ((xs.map maskedThreat).zipIdx.mapM fun (th, pos) =>
            evidenceBlock (pos + 1) th)
          (xs.zipIdx.mapM fun (th, pos) => evidenceBlock (pos + 1) th) := by
    intro xs
    constructor
    · rw [mapM_map]
      apply congrArg (xs.mapM ·)
      funext th
      exact threatRow_maskedThreat th
    · have weights : xs.map evidenceOpenings =
          xs.zipIdx.map fun numbered => evidenceOpenings numbered.1 := by
        rw [← zipIdx_map_fst 0 xs, List.map_map, zipIdx_map_fst]
        rfl
      have blocks : ∀ numbered : Value × Nat, Alike (Gains (evidenceOpenings numbered.1))
          (evidenceBlock (numbered.2 + 1) (maskedThreat numbered.1))
          (evidenceBlock (numbered.2 + 1) numbered.1) := by
        intro numbered
        exact alike_evidenceBlock (numbered.2 + 1) numbered.1
      rw [weights, zipIdx_map, mapM_map]
      exact alike_mapM _ blocks xs.zipIdx
  rcases Value.amendItems_cases maskedThreat ths with ⟨xs, rfl | rfl⟩ | ⟨hs, none⟩
  · exact Alike.ok (changed xs)
  · exact Alike.ok (changed xs)
  · rw [hs, none]
    apply Alike.refl
    intro xs
    exact ⟨rfl, Alike.refl AllGain.refl _⟩

theorem alike_singlePage (m : Moment) (data : Value) :
    Alike (Gains (textOpenings data)) (singlePage m (masked data)) (singlePage m data) := by
  have threats : (masked data).getD "threats" (.list []) =
      (data.getD "threats" (.list [])).map (amendItems maskedThreat) := by
    rw [masked, Value.getD_amend_other (by decide), Value.getD_amend_other (by decide),
      Value.getD_amend_same _ rfl]
  have risk : (masked data).getD "risk_assessment" (.record []) =
      data.getD "risk_assessment" (.record []) :=
    getD_masked_other data (.record []) (by decide)
  have agg : (masked data).getD "aggregated_results" (.record []) =
      (data.getD "aggregated_results" (.record [])).map (amend "static" maskedFindings) := by
    rw [masked, Value.getD_amend_same _ rfl, Value.getD_amend_other (by decide),
      Value.getD_amend_other (by decide)]
  rw [singlePage, threats, risk, agg]
  apply (Outcome.alike_map _ _).bind
  rintro _ listed _ listedRead rfl
  apply Alike.bind_same
  intro risk _
  apply (Outcome.alike_map _ _).bind
  rintro _ agg _ aggregatedRead rfl
  dsimp only
  rw [Value.orElse_change (Value.truthy_amend agg) rfl]
  apply (alike_sourcesOf data (agg.orElse (.record []))).bind
  rintro _ srcs _ sourcesRead rfl
  dsimp only
  apply (alike_vulnerabilities srcs.static).bind
  intro plainFound f _ _ foundRows
  apply foundRows.bind
  intro plainRows rows _ _ rowsGain
  refine .bind_same fun score _ => .bind_same fun levelRead _ => .bind_same fun level _ =>
    .bind_same fun n _ => .bind_same fun levelWord _ => .bind_same fun head _ => ?_
  apply (alike_threats listed).bind
  rintro plainThreats threats _ _ ⟨sameRows, blocks⟩
  rw [sameRows]
  refine .bind_same fun threatRows _ => .bind_same fun pats _ => .bind_same fun fls _ =>
    .bind_same fun structures _ => .bind_same fun vulnerabilityCount _ => .bind_same fun parsed _ =>
    .bind_same fun calls _ => .bind_same fun connections _ => .bind_same fun files _ =>
    .bind_same fun memory _ => .bind_same fun fuzzed _ => .bind_same fun network _ => ?_
  apply blocks.bind
  intro plainBlocks blocks _ _ blocksGain
  apply Alike.ok
  have shownThreats : listed.sequence = (data.under "threats").sequence :=
    Value.view_of_getD Value.sequence listedRead rfl
  have shownMatches : srcs.static.under "cve_matches" =
      (shownFindings data).under "cve_matches" := by
    rw [under_static_of_sourcesOf sourcesRead, Value.under_orElse,
      Value.view_of_getD (Value.under · "static") aggregatedRead rfl, shownFindings]
  rw [textOpenings, Nat.add_comm, ← shownThreats, ← shownMatches]
  -- The vulnerabilities come before the evidence, and all other parts are the same.
  have table := (rowsGain.titledTable "CVE 匹配详情" vulnerabilityTitles).append_left "        "
  refine ((((Gains.append_left ?_ _).append_right network).append_right _).append
    blocksGain.join).append_right _
  exact ((((AllGain.among table [""] _).append_left _).append_right _).append_right _).joinLines

theorem isBatch_masked (data : Value) : isBatch (masked data) = isBatch data := by
  rw [isBatch, isBatch, Value.get, Value.get, getD_masked_other data .null (by decide)]

theorem page_of_single {data : Value} (single : isBatch data = .ok false) (m : Moment) :
    page m data = singlePage m data := by
  rw [page, Outcome.bind_ok single]
  rfl

/--
Texts of the analysed program bring their own markup into the page of a file.  Two results of single
files that are equal without these texts both have a page or fail by the same fault.  The pages
differ by the tag openings in the shown texts, so they have equally many openings exactly when the
shown texts have.
-/
theorem page_openings_eq_iff_texts (moment : Moment) {first second : Value}
    (single : isBatch first = .ok false) (same : masked first = masked second) :
    (∃ fault, page moment first = .error fault ∧ page moment second = .error fault) ∨
      ∃ firstPage secondPage,
        page moment first = .ok firstPage ∧ page moment second = .ok secondPage ∧
          openings firstPage + textOpenings second = openings secondPage + textOpenings first ∧
            (openings firstPage = openings secondPage ↔
              textOpenings first = textOpenings second) := by
  have singleSecond : isBatch second = .ok false := by
    rw [← isBatch_masked, ← same, isBatch_masked]
    exact single
  rw [page_of_single single, page_of_single singleSecond]
  have firstGains := alike_singlePage moment first
  rw [same] at firstGains
  have pages := firstGains.meet (alike_singlePage moment second)
  generalize singlePage moment first = firstOutcome at pages ⊢
  generalize singlePage moment second = secondOutcome at pages ⊢
  cases pages with
  | error fault => exact Or.inl ⟨fault, rfl, rfl⟩
  | ok gains =>
    rcases gains with ⟨plain, firstGain, secondGain⟩
    rw [Gains] at firstGain secondGain
    refine Or.inr ⟨_, _, rfl, rfl, ?_, ?_⟩
    · omega
    · constructor
      · intro equal
        omega
      · intro equal
        omega

def resultCiting (t : String) : Value :=
  .record [("threats", .list [.record [("evidence", .list [.record [("matched_text", .text t)]])]])]

theorem page_opens_tag_from_evidence :
    isBatch (resultCiting "<script>") = .ok false ∧
      masked (resultCiting "<script>") = masked (resultCiting "script") ∧
        ∃ tagged bare,
          page .current (resultCiting "<script>") = .ok tagged ∧
            page .current (resultCiting "script") = .ok bare ∧ openings tagged ≠ openings bare := by
  have single : isBatch (resultCiting "<script>") = .ok false := by
    have other : Value.null.same (.text "batch") = false := by decide +kernel
    exact congrArg Except.ok other
  have same : masked (resultCiting "<script>") = masked (resultCiting "script") := rfl
  have texts : textOpenings (resultCiting "<script>") ≠ textOpenings (resultCiting "script") := by
    decide
  have made : (page .current (resultCiting "script")).toOption.isSome = true := by
    decide +kernel
  refine ⟨single, same, ?_⟩
  rcases page_openings_eq_iff_texts .current single same with
    ⟨fault, _, failed⟩ | ⟨tagged, bare, taggedMade, bareMade, _, equal_iff⟩
  · rw [failed] at made
    cases made
  · exact ⟨tagged, bare, taggedMade, bareMade, fun equal => texts (equal_iff.mp equal)⟩

end SourceAudit.Report.Html
