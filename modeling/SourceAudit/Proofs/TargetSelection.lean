import SourceAudit.Proofs.AgentDocuments

/-!
# Selecting targets by replies

A request to the chat service takes one reply, and a reply may be any document.
-/

open List

namespace SourceAudit

namespace Outside

/-! ## Taking replies -/

namespace Conversation

def documentIn : Option ChatReply → Value
  | some (.content v) => Agent.readReply (v.orElse (.text "")).plain
  | _ => .record []

def heard (conv : Conversation) (i : Nat) : Value :=
  if conv.library then documentIn conv.replies[i]? else .record []

theorem documentIn_text (c : String) :
    documentIn (some (.content (.text c))) = Agent.readReply c := by
  have hw : ((Value.text c).orElse (.text "")).plain = c := by
    rw [Value.orElse]
    split
    · rfl
    · rename_i empty
      rw [Value.truthy, Bool.not_eq_true, Bool.not_eq_false'] at empty
      exact (String.isEmpty_iff.mp empty).symm
  rw [documentIn, hw]

theorem heard_eq_documentIn {conv : Conversation} (library : conv.library = true)
    (i : Nat) : conv.heard i = documentIn conv.replies[i]? := by
  rw [heard, library, if_pos rfl]

def TookReply (conv after : Conversation) : Prop :=
  after.library = conv.library ∧
    after.replies = if conv.library then conv.replies.tail else conv.replies

theorem TookReply.heard {conv after : Conversation} (took : conv.TookReply after)
    (i : Nat) : after.heard i = conv.heard (i + 1) := by
  obtain ⟨library, replies⟩ := took
  rw [Conversation.heard, Conversation.heard, library, replies]
  cases conv.library with
  | false => rfl
  | true => simp [getElem?_tail]

end Conversation

namespace Audit

def Answers {α : Type} (act : Audit α) (s : Session) : Prop :=
  ∃ v after, act.perform s = (.ok v, after)

instance {α : Type} (act : Audit α) (s : Session) : Decidable (Answers act s) :=
  decidable_of_iff ((act.perform s).1.toBool = true) <| by
    rw [Answers]
    rcases act.perform s with ⟨_ | v, s'⟩ <;> simp [Except.toBool]

def AnswersIff {α : Type} (act : Audit α) (s : Session) (condition : Prop) (v : α)
    (l : Session → Prop) : Prop :=
  (condition ∧ ∃ after, act.perform s = (.ok v, after) ∧ l after) ∨
    (¬ condition ∧ ∃ err after, act.perform s = (.error err, after))

theorem AnswersIff.of_eq_ok {α : Type} {act : Audit α} {s s' : Session}
    {condition : Prop} {v other : α} {l : Session → Prop} (decided : AnswersIff act s condition v l)
    (hd : act.perform s = (.ok other, s')) : condition ∧ other = v ∧ l s' := by
  rcases decided with ⟨holds, later, hs, leaves⟩ | ⟨_, err, later, failed⟩
  · cases hd.symm.trans hs
    exact ⟨holds, rfl, leaves⟩
  · cases hd.symm.trans failed

end Audit

end Outside

namespace Agent

open Outside Outside.Audit
open SourceAudit.Outcome

theorem readReply_empty : readReply "" = .record [] := rfl

theorem documentOf_replyOutcome (s : Session) (library : s.script.chatLibrary = true) :
    documentOf (replyOutcome s.script.replies) = s.conversation.heard 0 := by
  rw [Conversation.heard_eq_documentIn library, Session.conversation]
  dsimp only
  cases s.script.replies with
  | nil => rfl
  | cons reply tl =>
    cases reply with
    | content v => rfl
    | failed msg => rfl
    | nothing => exact readReply_empty
    | noChoices => exact readReply_empty
    | noMessage => exact readReply_empty

def Timed (prov : Provider) : Prop :=
  Succeeds prov.timeout.toDouble

theorem perform_limits {prov : Provider} (timed : Timed prov) (s : Session) :
    ∃ limits, prov.limits.perform s = (.ok limits, s) := by
  obtain ⟨total, hr⟩ := timed
  rw [Provider.limits, perform_given hr]
  dsimp only
  rw [perform_get_bind]
  split <;> exact ⟨_, rfl⟩

def SameFiles (s s' : Session) : Prop :=
  s'.files = s.files ∧ s'.here = s.here

theorem perform_chat_heard {prov : Provider} (timed : Timed prov) (msgs lim : Value) (s : Session) :
    ∃ out after, (prov.chat msgs lim).perform s = (out, after) ∧
      s.conversation.TookReply after.conversation ∧ SameFiles s after ∧
        documentOf out = s.conversation.heard 0 := by
  cases library : s.script.chatLibrary with
  | false =>
    obtain ⟨err, failed⟩ := perform_chat_unreachable library prov msgs lim
    refine ⟨_, _, failed, ⟨rfl, ?_⟩, ⟨rfl, rfl⟩, ?_⟩
    · simp [Session.conversation, library]
    · simp [documentOf, Conversation.heard, Session.conversation, library]
  | true =>
    obtain ⟨limits, limited⟩ := perform_limits timed s
    obtain ⟨call, _, sent⟩ := perform_chat_reachable library limited msgs lim
    refine ⟨_, _, sent, ⟨rfl, ?_⟩, ⟨rfl, rfl⟩, documentOf_replyOutcome s library⟩
    simp [Session.conversation, afterRequest, library]

/-! ## Selecting targets -/

/-- The settings that an analysis reads are numbers and texts where it needs them. -/
structure ReadableSettings (settings : Value) : Prop where
  fields : ∃ fields, settings = .record fields
  numbers : ∀ key standard,
    (key, standard) ∈ [("select_preview_lines", (120 : Int)), ("max_chars", 12000),
      ("max_file_chars", 4000), ("max_findings", 10)] →
    Succeeds (integerSetting settings key standard)
  prompts : ∀ key ∈ ["prompt_select_path", "prompt_select_inline", "prompt_analyze_path",
    "prompt_analyze_inline"], TextOrAbsent (settings.lookup key)

theorem ReadableSettings.prompt {settings : Value} (readable : ReadableSettings settings)
    (k : String) (hm : k ∈ ["prompt_select_path", "prompt_select_inline",
      "prompt_analyze_path", "prompt_analyze_inline"]) :
    ∃ v, settings.getD k (.text "") = .ok v ∧ TextOrAbsent v := by
  obtain ⟨fs, rfl⟩ := readable.fields
  refine ⟨_, rfl, ?_⟩
  have shape := readable.prompts k hm
  rw [Value.lookup, Value.lookup?] at shape
  cases hf : Value.field? k fs with
  | none => exact fun truthy => absurd truthy Bool.false_ne_true
  | some v => rwa [hf] at shape

theorem ReadableSettings.getD {settings : Value} (readable : ReadableSettings settings)
    (k : String) (standard : Value) : ∃ v, settings.getD k standard = .ok v := by
  obtain ⟨fs, rfl⟩ := readable.fields
  exact ⟨_, rfl⟩

structure Selectable (entries : List SourceEntry) (language : String) (reply : Value) : Prop where
  shown : ∀ entry ∈ entries, Previewable language entry
  named : ∀ target ∈ namedTargets reply, Hashable target

variable {prov : Provider} {settings : Value} {es : List SourceEntry} {lim : Int}

theorem perform_selectTargets (timed : Timed prov) (readable : ReadableSettings settings)
    (hne : es ≠ []) (room : 0 < lim) (lang : String) (s : Session) :
    AnswersIff (selectTargets prov settings es lim lang) s
      (Selectable es lang (s.conversation.heard 0))
      (choose lang lim.toNat (namedTargets (s.conversation.heard 0)) es)
      fun s' => s.conversation.TookReply s'.conversation := by
  obtain ⟨lineCount, hc⟩ := readable.numbers "select_preview_lines" 120 (by simp)
  have some : (es.isEmpty || decide (lim ≤ 0)) = false := by
    simpa [hne] using room
  rw [selectTargets_eq, some, if_neg (by decide), AnswersIff,
    perform_given hc]
  have previewable := succeeds_previews_iff lang lineCount es
  rcases previewed : es.mapM (preview lang lineCount) with err | previews
  · -- a file that cannot be shown ends the selection before any request
    rw [previewed] at previewable
    refine Or.inr ⟨fun selectable => ?_, err, s, perform_bind_error (perform_ofOutcome _ _)⟩
    exact not_succeeds_error err (previewable.mpr selectable.shown)
  · rw [previewed] at previewable
    have can : Json.writable (selectionDocument lim lang previews) = true :=
      Json.writable_of_isPlain _ (isPlain_selectionDocument lim lang
        (arePlain_of_mapM (fun _ _ made => isPlain_preview made) previewed))
    obtain ⟨p, pathRead, pathShape⟩ := readable.prompt "prompt_select_path" (by simp)
    obtain ⟨inline, inlineRead, inlineShape⟩ := readable.prompt "prompt_select_inline" (by simp)
    obtain ⟨bound, boundRead⟩ := readable.getD "select_max_tokens" .null
    obtain ⟨msgs, made⟩ := perform_messages can pathShape inlineShape s
    obtain ⟨out, s', sent, took, _, heard⟩ := perform_chat_heard timed msgs bound s
    rw [perform_bind_ok (perform_ofOutcome _ _), perform_given pathRead, perform_given inlineRead,
      perform_bind_ok made, perform_given boundRead, perform_attempt_bind sent, heard]
    have hn := succeeds_targets_iff (s.conversation.heard 0)
    rcases keyed : (namedTargets (s.conversation.heard 0)).mapM Value.asKey with err | keys
    · rw [keyed] at hn
      refine Or.inr ⟨fun selectable => ?_, err, s', perform_bind_error (perform_ofOutcome _ _)⟩
      exact not_succeeds_error err (hn.mpr selectable.named)
    · rw [keyed] at hn
      have selectable : Selectable es lang (s.conversation.heard 0) :=
        ⟨previewable.mp (succeeds_ok previews), hn.mp (succeeds_ok keys)⟩
      rw [mapM_asKey_eq keyed]
      exact Or.inl ⟨selectable, s', perform_bind_ok (perform_ofOutcome _ _), took⟩

def selections (conv : Conversation) (lim : Nat) (files : String → List SourceEntry)
    (langs : List String) : List (List SourceEntry) :=
  langs.mapIdx fun i lang =>
    choose lang lim (namedTargets (conv.heard i)) (files lang)

theorem selections_cons {conv after : Conversation} (took : conv.TookReply after)
    (lim : Nat) (files : String → List SourceEntry) (lang : String) (tl : List String) :
    selections conv lim files (lang :: tl) =
      choose lang lim (namedTargets (conv.heard 0)) (files lang) ::
        selections after lim files tl := by
  rw [selections, mapIdx_cons, selections]
  simp only [took.heard]

def AllSelectable (conv : Conversation) (files : String → List SourceEntry)
    (langs : List String) : Prop :=
  ∀ i lang, langs[i]? = some lang →
    Selectable (files lang) lang (conv.heard i)

theorem allSelectable_cons {conv after : Conversation}
    (took : conv.TookReply after) (files : String → List SourceEntry) (lang : String)
    (tl : List String) :
    AllSelectable conv files (lang :: tl) ↔
      Selectable (files lang) lang (conv.heard 0) ∧ AllSelectable after files tl := by
  constructor
  · intro all
    refine ⟨all 0 lang rfl, fun i next hf => ?_⟩
    rw [took.heard i]
    exact all (i + 1) next hf
  · rintro ⟨h1, others⟩ i next hf
    cases i with
    | zero =>
      cases hf
      exact h1
    | succ i =>
      rw [← took.heard i]
      exact others i next hf

theorem perform_selections (timed : Timed prov) (readable : ReadableSettings settings)
    (room : 0 < lim) {files : String → List SourceEntry} {langs : List String}
    (hpres : ∀ lang ∈ langs, files lang ≠ []) (s : Session) :
    AnswersIff (langs.mapM fun lang =>
        selectTargets prov settings (files lang) lim lang) s
      (AllSelectable s.conversation files langs) (selections s.conversation lim.toNat files langs)
      fun s' => ∀ i, s'.conversation.heard i = s.conversation.heard (langs.length + i) := by
  induction langs generalizing s with
  | nil =>
    refine Or.inl ⟨fun i lang hf => ?_, s, rfl, fun i => ?_⟩
    · simp at hf
    · rw [length_nil, Nat.zero_add]
  | cons lang tl ih =>
    obtain ⟨hh, others⟩ := forall_mem_cons.mp hpres
    rw [AnswersIff, mapM_cons]
    rcases perform_selectTargets timed readable hh room lang s with
      ⟨h1, mid, hb, took⟩ | ⟨stuck, err, mid, failed⟩
    · rw [perform_bind_ok hb, allSelectable_cons took, selections_cons took]
      rcases ih others mid with
        ⟨later, s', continued, taken⟩ | ⟨stuck, err, s', failed⟩
      · refine Or.inl ⟨⟨h1, later⟩, s', perform_bind_ok continued, fun i => ?_⟩
        rw [taken i, took.heard, length_cons]
        congr 1
        omega
      · exact Or.inr ⟨fun both => stuck both.2, err, s', perform_bind_error failed⟩
    · refine Or.inr ⟨fun all => ?_, err, mid, perform_bind_error failed⟩
      exact stuck (all 0 lang rfl)

end Agent

end SourceAudit
