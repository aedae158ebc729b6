import SourceAudit.Proofs.AgentRequests

/-!
# The budget of the targets

The targets that the agent runs are selected by replies of any kind, one for each language.
-/

open List

namespace SourceAudit

namespace Value

theorem same_text_iff (c : String) (v : Value) : (Value.text c).same v = true ↔ v = .text c := by
  cases v with
  | text other =>
    rw [same, beq_iff_eq, Value.text.injEq]
    exact eq_comm
  | _ => simp [same, isNumber]

theorem text_among_iff (c : String) (vs : List Value) :
    (Value.text c).among vs = true ↔ .text c ∈ vs := by
  rw [among, any_eq_true]
  constructor
  · rintro ⟨v, hm, hs⟩
    rw [← (same_text_iff c v).mp hs]
    exact hm
  · intro hm
    exact ⟨_, hm, (same_text_iff c _).mpr rfl⟩

end Value

namespace Agent

open Outside Outside.Audit
open SourceAudit.Outcome

/-! ## The files of one language -/

section Choice

variable {lang : String} {lim : Nat} {tgts : List Value} {es : List SourceEntry}

def Names (tgts : List Value) (e : SourceEntry) : Prop :=
  .text e.path ∈ tgts

theorem likelyEntries_subset (lang : String) (es : List SourceEntry) :
    likelyEntries lang es ⊆ es := by
  rw [likelyEntries]
  split
  · exact List.Subset.refl es
  · exact filter_subset_self _

theorem likelyEntries_ne_nil (some : es ≠ []) : likelyEntries lang es ≠ [] := by
  rw [likelyEntries]
  split
  · exact some
  · assumption

theorem choose_cases (lang : String) (lim : Nat) (tgts : List Value) (es : List SourceEntry) :
    (∃ named, named ≠ [] ∧ (∀ e ∈ named, e ∈ es ∧ Names tgts e) ∧
        choose lang lim tgts es = named.take lim) ∨
      (∀ e ∈ es, ¬ Names tgts e) ∧ choose lang lim tgts es = (likelyEntries lang es).take lim := by
  rw [choose]
  split
  · rename_i none
    right
    constructor
    · intro e hm named
      apply filter_eq_nil_iff.mp none e hm
      exact (Value.text_among_iff _ _).mpr named
    · rfl
  · rename_i some
    left
    refine ⟨_, some, ?_, rfl⟩
    intro e hm
    rcases mem_filter.mp hm with ⟨hcol, named⟩
    exact ⟨hcol, (Value.text_among_iff _ _).mp named⟩

theorem choose_subset : choose lang lim tgts es ⊆ es := by
  intro e hm
  rcases choose_cases lang lim tgts es with ⟨named, _, each, chosen⟩ | ⟨_, chosen⟩
  · rw [chosen] at hm
    exact (each e (mem_of_mem_take hm)).1
  · rw [chosen] at hm
    exact likelyEntries_subset lang es (mem_of_mem_take hm)

theorem choose_ne_nil (some : es ≠ []) (room : 0 < lim) : choose lang lim tgts es ≠ [] := by
  rcases choose_cases lang lim tgts es with ⟨named, hne, _, chosen⟩ | ⟨_, chosen⟩
  · rw [chosen]
    simpa [take_eq_nil_iff, room.ne'] using hne
  · rw [chosen]
    simpa [take_eq_nil_iff, room.ne'] using likelyEntries_ne_nil some

theorem names_of_mem_choose {e other : SourceEntry} (hm : e ∈ es)
    (hn : Names tgts e) (chosen : other ∈ choose lang lim tgts es) : Names tgts other := by
  rcases choose_cases lang lim tgts es with ⟨all, _, each, hs⟩ | ⟨none, _⟩
  · rw [hs] at chosen
    exact (each other (mem_of_mem_take chosen)).2
  · exact absurd hn (none e hm)

end Choice

/-! ## Sharing the budget -/

section Sharing

variable {lim : Nat} {chosen others : List SourceEntry}

structure Grown (limit : Nat) (start chosen : List SourceEntry) : Prop where
  bounded : chosen.length ≤ limit
  distinct : chosen.Nodup
  extends_ : start <+: chosen

theorem Grown.addTarget {start : List SourceEntry} (grown : Grown lim start chosen)
    (e : SourceEntry) : Grown lim start (addTarget lim chosen e) := by
  rw [Agent.addTarget]
  split_ifs with full
  · exact grown
  · rw [not_or, Nat.not_le] at full
    constructor
    · rw [length_append]
      exact full.1
    · exact nodup_append_comm.mp (nodup_cons.mpr ⟨full.2, grown.distinct⟩)
    · exact grown.extends_.trans (prefix_append _ _)

theorem Grown.foldl {start : List SourceEntry} (grown : Grown lim start chosen)
    (es : List SourceEntry) : Grown lim start (es.foldl (Agent.addTarget lim) chosen) := by
  induction es generalizing chosen with
  | nil => exact grown
  | cons e tl ih => exact ih (grown.addTarget e)

theorem mem_of_mem_addTarget {e other : SourceEntry}
    (hm : other ∈ addTarget lim chosen e) : other ∈ chosen ∨ other = e := by
  rw [addTarget] at hm
  split_ifs at hm with full
  · exact Or.inl hm
  · simpa using hm

theorem mem_of_mem_foldl {e : SourceEntry}
    (hm : e ∈ others.foldl (addTarget lim) chosen) : e ∈ chosen ∨ e ∈ others := by
  induction others generalizing chosen with
  | nil => exact Or.inl hm
  | cons other tl ih =>
    rcases ih hm with added | later
    · rcases mem_of_mem_addTarget added with before | rfl
      · exact Or.inl before
      · exact Or.inr mem_cons_self
    · exact Or.inr (mem_cons_of_mem _ later)

theorem exists_mem_of_mem_shareBudget {sels : List (List SourceEntry)} {e : SourceEntry}
    (hm : e ∈ shareBudget lim sels) : ∃ sel ∈ sels, e ∈ sel := by
  rcases mem_of_mem_foldl hm with leading | ho
  · rcases mem_filterMap.mp (mem_of_mem_take leading) with ⟨sel, ht, head⟩
    exact ⟨sel, ht, mem_of_head? head⟩
  · rcases mem_flatMap.mp ho with ⟨sel, ht, tail⟩
    exact ⟨sel, ht, mem_of_mem_tail tail⟩

end Sharing

/-! ## The targets of all languages -/

def Sorted (langs : List String) (sels : List (List SourceEntry)) : Prop :=
  Forall₂ (fun lang sel => sel ≠ [] ∧ ∀ e ∈ sel, e.language = some lang) langs sels

theorem Sorted.leading {langs : List String} {sels : List (List SourceEntry)}
    (sorted : Sorted langs sels) :
    (sels.filterMap List.head?).map (·.language) = langs.map some := by
  induction sorted with
  | nil => rfl
  | @cons lang sel langs sels hh _ ih =>
    rcases hh with ⟨hne, each⟩
    cases sel with
    | nil => exact absurd rfl hne
    | cons e tl =>
      have head : e.language = some lang := each e mem_cons_self
      show e.language :: _ = some lang :: langs.map some
      rw [head, ih]

theorem Sorted.grown {langs : List String} {sels : List (List SourceEntry)}
    (sorted : Sorted langs sels) (hdis : langs.Nodup) (lim : Nat) :
    Grown lim ((sels.filterMap List.head?).take lim) (shareBudget lim sels) := by
  apply Grown.foldl
  constructor
  · exact length_take_le _ _
  · apply List.Nodup.of_map (·.language)
    rw [map_take, sorted.leading]
    apply List.Nodup.sublist (take_sublist _ _)
    exact hdis.map (Option.some_injective String)
  · exact prefix_rfl

theorem Sorted.covering {langs : List String} {sels : List (List SourceEntry)}
    (sorted : Sorted langs sels) (hdis : langs.Nodup) (lim : Nat) :
    ((shareBudget lim sels).take (min lim langs.length)).map (·.language) =
      (langs.take lim).map some := by
  have leading : ((sels.filterMap List.head?).take lim).map (·.language) =
      (langs.take lim).map some := by
    rw [map_take, sorted.leading, map_take]
  have size : ((sels.filterMap List.head?).take lim).length = min lim langs.length := by
    have lengths := congrArg List.length leading
    rw [length_map, length_map] at lengths
    rw [lengths, length_take]
  have h1 := prefix_iff_eq_take.mp (sorted.grown hdis lim).extends_
  rw [size] at h1
  rw [← h1, leading]

/-! ## What the replies lead to -/

section Selecting

variable {prov : Provider} {settings : Value} {lim : Int} {s s' : Session}

theorem tools_of_chat {msgs bound : Value} {out : Outcome String}
    (sent : (prov.chat msgs bound).perform s = (out, s')) : s'.script.tools = s.script.tools := by
  rcases perform_chat prov msgs bound s with ⟨err, failed⟩ | ⟨call, _, reached⟩
  · cases sent.symm.trans failed
    rfl
  · cases sent.symm.trans reached
    rfl

theorem choose_of_selectTargets {es chosen : List SourceEntry} {lang : String}
    (timed : Timed prov) (some : es ≠ []) (room : 0 < lim)
    (hd : (selectTargets prov settings es lim lang).perform s = (.ok chosen, s')) :
    chosen = choose lang lim.toNat (namedTargets (s.conversation.heard 0)) es ∧
      s.conversation.TookReply s'.conversation ∧ s'.script.tools = s.script.tools := by
  have busy : (es.isEmpty || decide (lim ≤ 0)) = false := by
    simpa [some] using room
  rw [selectTargets_eq, busy] at hd
  -- everything before the request only looks at the session
  rcases ofOutcome_bind_eq_ok hd with ⟨n, _, hd⟩
  rcases ofOutcome_bind_eq_ok hd with ⟨previews, _, hd⟩
  rcases ofOutcome_bind_eq_ok hd with ⟨p, _, hd⟩
  rcases ofOutcome_bind_eq_ok hd with ⟨inline, _, hd⟩
  rcases (looks_messages _ _ _).bind_eq_ok hd with ⟨msgs, _, hd⟩
  rcases ofOutcome_bind_eq_ok hd with ⟨bound, _, hd⟩
  rcases perform_chat_heard timed msgs bound s with ⟨reply, later, sent, took, _, heard⟩
  rw [perform_attempt_bind sent] at hd
  rcases ofOutcome_bind_eq_ok hd with ⟨keys, keyed, hd⟩
  cases hd
  rw [mapM_asKey_eq keyed, heard]
  exact ⟨rfl, took, tools_of_chat sent⟩

theorem selections_of_mapM {files : String → List SourceEntry} {langs : List String}
    {picked : List (List SourceEntry)} (timed : Timed prov) (room : 0 < lim)
    (hpres : ∀ lang ∈ langs, files lang ≠ []) (hd : (langs.mapM fun lang =>
      selectTargets prov settings (files lang) lim lang).perform s = (.ok picked, s')) :
    picked = selections s.conversation lim.toNat files langs ∧
      s'.script.tools = s.script.tools := by
  induction langs generalizing s picked with
  | nil =>
    cases hd
    exact ⟨rfl, rfl⟩
  | cons lang tl ih =>
    rw [mapM_cons] at hd
    rcases perform_bind_eq_ok.mp hd with ⟨a, mid, hb, hd⟩
    rcases perform_bind_eq_ok.mp hd with ⟨others, later, continued, hd⟩
    cases hd
    rcases forall_mem_cons.mp hpres with ⟨hh, behind⟩
    rcases choose_of_selectTargets timed hh room hb with ⟨rfl, took, tools⟩
    rcases ih behind continued with ⟨rfl, toolsAfter⟩
    rw [selections_cons took]
    exact ⟨rfl, toolsAfter.trans tools⟩

def targetsBy (conv : Conversation) (lim : Nat) (es : List SourceEntry) : List SourceEntry :=
  shareBudget lim (selections conv lim (entriesIn es) (presentLanguages es))

theorem targetsBy_of_selectAll {es tgts : List SourceEntry} (timed : Timed prov) (room : 0 < lim)
    (hd : (selectAll prov settings es lim).perform s = (.ok tgts, s')) :
    tgts = targetsBy s.conversation lim.toNat es ∧ s'.script.tools = s.script.tools := by
  rcases perform_bind_eq_ok.mp hd with ⟨picked, mid, asked, hd⟩
  have hpres : ∀ lang ∈ presentLanguages es, entriesIn es lang ≠ [] :=
    fun _ hm => entriesIn_ne_nil hm
  rcases selections_of_mapM timed room hpres asked with ⟨rfl, tools⟩
  cases hd
  exact ⟨rfl, tools⟩

theorem targetsBy_of_observe {cfg general flag sum : Value}
    {es tgts : List SourceEntry} (timed : Timed prov)
    (stated : (cfg.orElse (.record [])).getD "settings" (.record []) = .ok general)
    (flagged : general.getD "enable_dynamic_analysis" (.bool true) = .ok flag)
    (enabled : flag.truthy = true)
    (limited : integerSetting settings "max_dynamic_targets" 3 = .ok lim) (room : 0 < lim)
    (hd : (observe prov cfg settings es).perform s = (.ok (tgts, sum), s')) :
    tgts = targetsBy s.conversation lim.toNat es := by
  have busy : (!flag.truthy || decide (lim ≤ 0)) = false := by
    simpa [enabled] using room
  rw [observe, perform_given stated, perform_given flagged, perform_given limited, busy] at hd
  rcases perform_bind_eq_ok.mp hd with ⟨chosen, mid, selected, hd⟩
  rcases targetsBy_of_selectAll timed room selected with ⟨rfl, _⟩
  split at hd
  · rename_i none
    cases hd
    exact (List.isEmpty_iff.mp none).symm
  · rcases perform_bind_eq_ok.mp hd with ⟨runs, last, _, hd⟩
    cases hd
    rfl

end Selecting

/-! ## The guarantee -/

/-- What targets owe to their budget, to the collected files and to the documents in the replies,
which are taken by the languages in order. -/
structure WithinBudget (limit : Nat) (entries : List SourceEntry) (heard : Nat → Value)
    (targets : List SourceEntry) : Prop where
  bounded : targets.length ≤ limit
  distinct : (targets.map (·.path)).Nodup
  collected : ∀ target ∈ targets, target ∈ entries ∧
    ∃ language ∈ runnableLanguages, target.language = some language
  covering : (targets.take (min limit (presentLanguages entries).length)).map (·.language) =
    ((presentLanguages entries).take limit).map some
  named : ∀ index language, (presentLanguages entries)[index]? = some language →
    (∃ entry ∈ entriesIn entries language, Names (namedTargets (heard index)) entry) →
      ∀ target ∈ targets, target.language = some language →
        Names (namedTargets (heard index)) target

variable {es : List SourceEntry} {conv : Conversation} {lim : Nat}

theorem language_of_mem_entriesIn {lang : String} {e : SourceEntry}
    (hm : e ∈ entriesIn es lang) : e.language = some lang := by
  have isIn := (mem_filter.mp hm).2
  exact beq_iff_eq.mp isIn

theorem nodup_presentLanguages (es : List SourceEntry) : (presentLanguages es).Nodup := by
  apply List.Nodup.filter
  decide

theorem sorted_selections (room : 0 < lim) (conv : Conversation)
    {langs : List String} (hpres : ∀ lang ∈ langs, entriesIn es lang ≠ []) :
    Sorted langs (selections conv lim (entriesIn es) langs) := by
  rw [Sorted, selections, forall₂_iff_get]
  constructor
  · exact length_mapIdx.symm
  · intro i hi inside'
    simp only [get_eq_getElem, getElem_mapIdx]
    constructor
    · exact choose_ne_nil (hpres _ (getElem_mem hi)) room
    · intro e hm
      exact language_of_mem_entriesIn (choose_subset hm)

theorem mem_choose_of_mem_targetsBy {tgt : SourceEntry} {i : Nat} {lang : String}
    (hm : tgt ∈ targetsBy conv lim es) (place : (presentLanguages es)[i]? = some lang)
    (spoken : tgt.language = some lang) :
    tgt ∈ choose lang lim (namedTargets (conv.heard i)) (entriesIn es lang) := by
  rcases exists_mem_of_mem_shareBudget hm with ⟨sel, ht, hi⟩
  rcases mem_mapIdx.mp ht with ⟨other, within, rfl⟩
  have hw := language_of_mem_entriesIn (choose_subset hi)
  rw [spoken, Option.some.injEq] at hw
  rcases List.getElem?_eq_some_iff.mp place with ⟨bound, hs⟩
  have equal : i = other := (nodup_presentLanguages es).getElem_inj_iff.mp (hs.trans hw)
  subst equal
  rw [← hw] at hi
  exact hi

theorem withinBudget_targetsBy (room : 0 < lim)
    (determined : ∀ e ∈ es, ∀ other ∈ es, e.path = other.path → e = other) :
    WithinBudget lim es conv.heard (targetsBy conv lim es) := by
  have hpres : ∀ lang ∈ presentLanguages es, entriesIn es lang ≠ [] :=
    fun _ hm => entriesIn_ne_nil hm
  have sorted := sorted_selections room conv hpres
  have grown := sorted.grown (nodup_presentLanguages es) lim
  have from_ : ∀ tgt ∈ targetsBy conv lim es,
      ∃ lang ∈ presentLanguages es, tgt ∈ entriesIn es lang := by
    intro tgt hm
    rcases exists_mem_of_mem_shareBudget hm with ⟨sel, ht, hi⟩
    rcases mem_mapIdx.mp ht with ⟨i, within, rfl⟩
    exact ⟨_, getElem_mem within, choose_subset hi⟩
  have hcol : ∀ tgt ∈ targetsBy conv lim es, tgt ∈ es := by
    intro tgt hm
    rcases from_ tgt hm with ⟨lang, _, hi⟩
    exact (mem_filter.mp hi).1
  constructor
  · exact grown.bounded
  · apply List.Nodup.map_on _ grown.distinct
    intro a hm b other hs
    exact determined a (hcol a hm) b (hcol b other) hs
  · intro tgt hm
    rcases from_ tgt hm with ⟨lang, ht, hi⟩
    exact ⟨hcol tgt hm, lang, (mem_filter.mp ht).1, language_of_mem_entriesIn hi⟩
  · exact sorted.covering (nodup_presentLanguages es) lim
  · rintro i lang place ⟨e, hm, hn⟩ tgt chosen spoken
    exact names_of_mem_choose hm hn (mem_choose_of_mem_targetsBy chosen place spoken)

/-! ## The targets of an analysis -/

theorem path_of_collectFile {p : String} {s s' : Session} {e : SourceEntry}
    (hd : (collectFile p).perform s = (.ok e, s')) : e.path = p := by
  rcases perform_bind_eq_ok.mp hd with ⟨bytes, a, _, hd⟩
  rcases perform_bind_eq_ok.mp hd with ⟨lang, b, _, hd⟩
  cases hd
  rfl

theorem perform_collectFile_of_mem {nms : List Value} {s s' : Session}
    {e : SourceEntry} (hd : (collectFiles nms).perform s = (.ok es, s')) (hm : e ∈ es) :
    (collectFile e.path).perform s = (.ok e, s) := by
  induction nms generalizing es s' with
  | nil =>
    cases hd
    exact absurd hm not_mem_nil
  | cons nm tl ih =>
    cases nm with
    | text p =>
      rcases Looks.bind_eq_ok (.exists? p) hd with ⟨f, _, hd⟩
      split at hd
      · exact ih hd hm
      · rcases (looks_collectFile p).bind_eq_ok hd with ⟨a, hr, hd⟩
        rcases perform_bind_eq_ok.mp hd with ⟨others, later, hcol, hd⟩
        cases hd
        rcases mem_cons.mp hm with rfl | behind
        · rw [path_of_collectFile hr]
          exact hr
        · exact ih hcol behind
    | _ => exact ih hd hm

theorem eq_of_path_eq {nms : List Value} {s s' : Session} {e other : SourceEntry}
    (hd : (collectFiles nms).perform s = (.ok es, s'))
    (hm : e ∈ es) (otherMember : other ∈ es) (hs : e.path = other.path) : e = other := by
  have hr := perform_collectFile_of_mem hd hm
  rw [hs, perform_collectFile_of_mem hd otherMember] at hr
  cases hr
  rfl

structure MayRun (config : Value) (session : Session) (limit : Int) : Prop where
  agent : ∃ settings key,
    settingsOf (config.orElse (.record [])) = .ok settings ∧
      (settings.lookup "enabled").truthy = true ∧
        (settings.lookup "network_enabled").truthy = true ∧
          (serviceKey settings).perform session = (.ok key, session) ∧ key.truthy = true ∧
            integerSetting settings "max_dynamic_targets" 3 = .ok limit
  dynamic : ∃ general flag,
    (config.orElse (.record [])).getD "settings" (.record []) = .ok general ∧
      general.getD "enable_dynamic_analysis" (.bool true) = .ok flag ∧ flag.truthy = true
  room : 0 < limit

theorem record_of_settingsOf {cfg settings : Value} (made : settingsOf cfg = .ok settings) :
    ∃ fs, settings = .record fs := by
  rcases bind_eq_ok.mp made with ⟨ovr, _, made⟩
  cases made
  exact ⟨_, rfl⟩

/--
Whatever the replies say, an analysis that ends with a report has selected targets within its
budget: at most as many as allowed, all different, all of them collected files that can be run,
first one of each language that is there, and none but the named ones of a language whose reply
names any.
-/
theorem analyze_selects_withinBudget {paths config : Value} {session after : Session}
    {limit : Int} {report : Report} (may : MayRun config session limit)
    (done : (analyze paths config).perform session = (.ok report, after)) :
    ∃ names entries targets, paths.items = .ok names ∧
      (collectFiles names).perform session = (.ok entries, session) ∧
        report.notes.lookup "selected_dynamic_targets" =
            Value.ofTexts (targets.map SourceEntry.path) ∧
          WithinBudget limit.toNat entries session.conversation.heard targets := by
  rcases may.agent with ⟨settings, key, merged, enabled, network, keyed, truthy, limited⟩
  rcases may.dynamic with ⟨general, flag, stated, flagged, dynamic⟩
  rcases record_of_settingsOf merged with ⟨fields, rfl⟩
  rw [analyze, perform_given merged] at done
  dsimp only at done
  rw [perform_given (flag_eq_true enabled), if_neg (by decide),
    perform_given (flag_eq_true network), if_neg (by decide),
    perform_bind_ok keyed, if_neg (by simp [truthy])] at done
  rcases ofOutcome_bind_eq_ok done with ⟨provider, described, done⟩
  rcases ofOutcome_bind_eq_ok done with ⟨names, listed, done⟩
  rcases (looks_collectFiles names).bind_eq_ok done with ⟨entries, collected, done⟩
  rcases perform_bind_eq_ok.mp done with ⟨⟨targets, summary⟩, observed, seen, done⟩
  have selected := targetsBy_of_observe (timed_of_providerOf described) stated flagged dynamic
    limited may.room seen
  rcases ofOutcome_bind_eq_ok done with ⟨payload, _, done⟩
  rcases perform_bind_eq_ok.mp done with ⟨⟨answer, problem⟩, answered, _, done⟩
  rcases ofOutcome_bind_eq_ok done with ⟨required, _, done⟩
  rcases ofOutcome_bind_eq_ok done with ⟨threats, _, done⟩
  cases done
  refine ⟨names, entries, targets, listed, collected, ?_, ?_⟩
  · simp [Value.lookup, Value.lookup?, Value.field?]
  · rw [selected]
    apply withinBudget_targetsBy
    · have room := may.room
      omega
    · intro entry member other otherMember same
      exact eq_of_path_eq collected member otherMember same

/-! ## A lively configuration -/

def livelyConfig : Value :=
  .record [("agent", quietAgent [])]

def livelySession : Session :=
  let empty := Session.start
    { replies := [.content (.text "\x7b\"run_targets\": [\"b.go\"]\x7d"),
        .content (.text "\x7b\"run_targets\": [7, \"c.java\"]\x7d"),
        .content (.text "\x7b\"findings\": []\x7d")] }
  { empty with
    files := ((empty.files.put ["W", "a.go"] (.file [])).put ["W", "b.go"] (.file [])).put
      ["W", "c.java"] (.file []) }

theorem settingsOf_livelyConfig : settingsOf livelyConfig = .ok (quietSettings []) := by
  apply settingsOf_of_quietAgent
  cbv

theorem mayRun_lively : MayRun livelyConfig livelySession 3 where
  agent := ⟨quietSettings [], .text "k", settingsOf_livelyConfig, (flags_quiet []).1,
    (flags_quiet []).2, serviceKey_quiet [] livelySession, rfl, limit_quiet []⟩
  dynamic := ⟨.record [], .bool true, rfl, rfl, rfl⟩
  room := by decide

theorem answers_lively :
    Answers (analyze (Value.ofTexts ["c.java", "a.go", "b.go"]) livelyConfig) livelySession := by
  decide +kernel

/-- The targets of three files, with one reply that names a file and one that names a number too. -/
theorem analyze_selects_withinBudget_of_lively :
    MayRun livelyConfig livelySession 3 ∧
      ∃ report after,
        (analyze (Value.ofTexts ["c.java", "a.go", "b.go"]) livelyConfig).perform livelySession =
            (.ok report, after) ∧
          ∃ names entries targets, (Value.ofTexts ["c.java", "a.go", "b.go"]).items = .ok names ∧
              (collectFiles names).perform livelySession = (.ok entries, livelySession) ∧
                report.notes.lookup "selected_dynamic_targets" =
                    Value.ofTexts (targets.map SourceEntry.path) ∧
                  WithinBudget 3 entries livelySession.conversation.heard targets := by
  rcases answers_lively with ⟨report, after, done⟩
  exact ⟨mayRun_lively, report, after, done, analyze_selects_withinBudget mayRun_lively done⟩

end Agent

end SourceAudit
