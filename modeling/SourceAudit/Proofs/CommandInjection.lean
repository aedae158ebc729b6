import SourceAudit.Proofs.FlowCoverage
import SourceAudit.Proofs.RiskMonotone
import SourceAudit.Proofs.SortedValues
import SourceAudit.Proofs.TaintedSums

/-!
# Command injection through variables

An argument of the program may be handed on from variable to variable before it is run as a command.
-/

open List Option

set_option linter.dupNamespace false

namespace SourceAudit

namespace Findings

/-! ## The lines of threats -/

def EndsOn (fl : Value) (n : Int) : Prop :=
  fl.getD "sink_line" (.int 0) = .ok (.int n)

theorem Told.lines_iff {sel : Selection} {part : List Threat} (told : Told sel part)
    (none : sel.found.1 = [] → sel.found.2 = [])
    (numbers : ∀ ln ∈ sel.found.2, IsNumber ln) {k : String} {n : Int} (hpos : 0 < n) :
    (∃ th ∈ part, th.kind = k ∧ .int n ∈ th.lines) ↔ sel.kind = k ∧ .int n ∈ sel.found.2 := by
  cases told with
  | silent empty => simp [none empty]
  | reported _ sameKind _ _ lines =>
    obtain ⟨rising, hd, _, mem_iff⟩ := positiveLines_rising numbers
    have hs : _ = rising.map Value.int := Except.ok.inj (lines.symm.trans hd)
    simp [sameKind, hs, mem_iff, hpos]

theorem lines_of_flows {fls : List Value} (shapes : ∀ fl ∈ fls, FlowShape fl)
    (placed : ∀ fl ∈ fls, ∃ n, EndsOn fl n) :
    ∃ ths, (aggregate (.record [("taint_flows", .list fls)]) .null >>= identify) =
      .ok ths ∧ ∀ n : Int, 0 < n → ((∃ th ∈ ths, th.kind = "RCE" ∧ .int n ∈ th.lines) ↔
          ∃ fl ∈ fls, startsOther fl = .ok true ∧ EndsOn fl n) ∧
        ((∃ th ∈ ths, th.kind = "Command Injection" ∧ .int n ∈ th.lines) ↔
          ∃ fl ∈ fls, injects fl = .ok true ∧ EndsOn fl n) := by
  have hleg : Legible [] fls :=
    { severities := forall_mem_nil _, rules := forall_mem_nil _
      lines := fun fl hm _ => placed fl hm }
  obtain ⟨ths, hd⟩ := exists_threats hleg (forall_mem_nil _) shapes
  obtain ⟨parts, rfl, told⟩ := FindingLists.told_threats hd
  refine ⟨parts.flatten, hd, fun n hpos => ?_⟩
  have lined {test : Value → Outcome Bool} (numbered : Numbered test "sink_line" fls) :
      ((select test "sink_line" fls).1 = [] → (select test "sink_line" fls).2 = []) ∧
        ∀ ln ∈ (select test "sink_line" fls).2, IsNumber ln :=
    ⟨congrArg (List.map _), (gather_of_numbered numbered).2⟩
  have starting := numbered_startsOther hleg shapes
  have injecting := numbered_injects hleg shapes
  have lines : ∀ sel ∈ (FindingLists.ofStatic [] fls).selections,
      (sel.found.1 = [] → sel.found.2 = []) ∧ ∀ ln ∈ sel.found.2, IsNumber ln := by
    have none : (([] : List Value) = [] → ([] : List Value) = []) ∧
        ∀ ln ∈ ([] : List Value), IsNumber ln := ⟨id, forall_mem_nil _⟩
    simp only [FindingLists.selections, forall_mem_cons]
    refine ⟨?_, lined injecting, none, none, none, none, none, none, none, none, forall_mem_nil _⟩
    have alone : ((select executes "line" []).append (select startsOther "sink_line" fls)).append
        (executionCalls []) = select startsOther "sink_line" fls := by
      simp [Evidence.append, select, executionCalls]
    exact alone.symm ▸ lined starting
  have told_iff (k : String) : (∃ th ∈ parts.flatten, th.kind = k ∧ .int n ∈ th.lines) ↔ _ :=
    exists_told_iff told fun sel hl _ told =>
      told.lines_iff (lines sel hl).1 (lines sel hl).2 hpos
  rw [told_iff, told_iff]
  have isNumber : IsNumber (.int n) := ⟨n, rfl⟩
  have nothing : select executes "line" [] = ([], []) := rfl
  simp [FindingLists.selections, FindingLists.ofStatic, Evidence.append, executionCalls, nothing,
    mem_lines_of_numbered starting, mem_lines_of_numbered injecting, EndsOn, isNumber]

end Findings

namespace Tree

open SourceAudit.Findings (aggregate identify)

/-! ## Flows and the calls they end in -/

def LetsIn (t : Tree) (use : Use) (arg : Tree) : Prop :=
  isSource arg = true ∨
    ∃ p, arg.namedPath? = some p ∧ TaintedBefore t use.call p

variable {use : Use} {sink : String} {call arg : Tree}

theorem Given.unique {t : Tree} {other : String} {otherCall otherArgument : Tree}
    (given : Given t use sink call arg) (also : Given t use other otherCall otherArgument) :
    other = sink ∧ otherCall = call ∧ otherArgument = arg := by
  have sameCall : otherCall = call := Option.some.inj (also.here.symm.trans given.here)
  subst sameCall
  exact ⟨Option.some.inj (also.sink.symm.trans given.sink), rfl,
    Option.some.inj (also.argument.symm.trans given.argument)⟩

theorem exists_flow_iff {t : Tree} (told : String → String → Value → Prop) :
    (∃ fl ∈ flowsOf t, told fl.source fl.sink fl.sinkLine) ↔
      ∃ use sink call arg, Given t use sink call arg ∧ LetsIn t use arg ∧
        told arg.dataText sink call.lineValue := by
  obtain ⟨uses, _, mem_iff, described⟩ := (tracks_walk t).flowsAlong (suffix_refl t.walk)
  rw [Tree.map_snd_walk] at described
  constructor
  · rintro ⟨fl, hm, holds⟩
    obtain ⟨use, hl, call, arg, given, source, line, _⟩ := exists_related_of_mem described.flip hm
    obtain ⟨sink, otherCall, otherArgument, also, flowing⟩ := ((mem_iff use).mp hl).2
    obtain ⟨rfl, rfl, rfl⟩ := given.unique also
    rw [source, line] at holds
    exact ⟨use, _, _, _, given, flowing, holds⟩
  · rintro ⟨use, sink, call, arg, given, flowing, holds⟩
    have hk : call.IsNode := Tree.isNode_of_isKind given.calls
    have hl : use ∈ uses := (mem_iff use).mpr
      ⟨⟨call, Tree.mem_walk_iff.mpr ⟨given.here, hk⟩⟩, sink, call, arg, given, flowing⟩
    obtain ⟨fl, hm, otherCall, otherArgument, also, source, line, _⟩ :=
      exists_related_of_mem described hl
    obtain ⟨hs, rfl, rfl⟩ := given.unique also
    refine ⟨fl, hm, ?_⟩
    rw [source, line, hs]
    exact holds

/-! ## Programs -/

structure IsProgram (tree : Tree) : Prop where
  dotless : ∀ place node, tree.at? place = some node → node.isKind .name = true →
    '.' ∉ (node.word "id").toList
  placed : ∀ place node, tree.at? place = some node → node.isKind .call = true →
    ∃ line : Int, 0 < line ∧ node.line? = some line

theorem IsProgram.of_preorder {t : Tree}
    (dotless : ∀ nd ∈ t.preorder, nd.isKind .name = true → '.' ∉ (nd.word "id").toList)
    (placed : ∀ nd ∈ t.preorder, nd.isKind .call = true →
      nd.line?.any (fun ln => 0 < ln) = true) : IsProgram t := by
  have hl {pl : Place} {nd : Tree} {k : NodeKind} (ht : t.at? pl = some nd)
      (is : nd.isKind k = true) : nd ∈ t.preorder := by
    rw [← Tree.map_snd_walk]
    have hk := Tree.mem_walk_iff.mpr ⟨ht, Tree.isNode_of_isKind is⟩
    exact List.mem_map_of_mem hk
  constructor
  · intro pl nd ht is
    exact dotless nd (hl ht is) is
  · intro pl nd ht is
    obtain ⟨ln, hh, hpos⟩ := (Option.any_eq_true _ _).mp (placed nd (hl ht is) is)
    exact ⟨ln, by simpa using hpos, hh⟩

theorem Tree.at?_append (t : Tree) (pl tl : Place) :
    t.at? (pl ++ tl) = (t.at? pl).bind fun inner => inner.at? tl := by
  induction pl generalizing t with
  | nil => rfl
  | cons n others ih =>
    rw [cons_append, Tree.at?, Tree.at?, bind_assoc]
    exact congrArg _ (funext fun child => ih child)

variable {nm : String}

theorem Tree.exists_at?_of_mem_members {t x : Tree} (hm : x ∈ t.members nm) :
    ∃ pl, t.at? pl = some x := by
  rw [Tree.members] at hm
  split at hm
  · next xs hf =>
    cases t with
    | node k parts ln col =>
      obtain ⟨e, isEntry, hs⟩ := map_eq_some_iff.mp hf
      obtain ⟨i, hi, ht⟩ := mem_iff_getElem.mp (mem_of_find?_eq_some isEntry)
      obtain ⟨n, within, hh⟩ := mem_iff_getElem.mp hm
      refine ⟨[i, n], ?_⟩
      have child : (parts.map Prod.snd)[i]? = some (.list xs) := by
        rw [getElem?_map, getElem?_eq_getElem hi, ht, map_some, hs]
      simp [Tree.at?, Tree.children, child, getElem?_eq_getElem within, hh]
    | list _ => cases hf
    | leaf _ => cases hf
  · cases hm

theorem Given.exists_at?_argument {t : Tree} (given : Given t use sink call arg) :
    ∃ pl, t.at? pl = some arg := by
  obtain ⟨tl, inner⟩ := Tree.exists_at?_of_mem_members (mem_of_getElem? given.argument)
  exact ⟨use.call ++ tl, by rw [Tree.at?_append, given.here, bind_some, inner]⟩

/-! ## How the data in a call is written -/

section DataText

variable {t : Tree}

theorem Tree.kind?_of_isKind {k : NodeKind} (is : t.isKind k = true) : t.kind? = some k := by
  simpa [Tree.isKind] using is

theorem Tree.exists_node_of_isKind {k : NodeKind} (is : t.isKind k = true) :
    ∃ parts ln col, t = .node k parts ln col := by
  cases t with
  | node own parts ln col =>
    cases Tree.kind?_of_isKind is
    exact ⟨parts, ln, col, rfl⟩
  | list _ => cases is
  | leaf _ => cases is

theorem Tree.dataText_of_name (is : t.isKind .name = true) : t.dataText = t.word "id" := by
  obtain ⟨_, _, _, rfl⟩ := Tree.exists_node_of_isKind is
  rw [Tree.dataText]

theorem Tree.dataText_of_attribute {p : String} (is : t.isKind .attribute = true)
    (hn : t.path? = some p) : t.dataText = p := by
  obtain ⟨_, _, _, rfl⟩ := Tree.exists_node_of_isKind is
  rw [Tree.dataText, hn, getD_some]

theorem Tree.dataText_of_subscript {p : String} (is : t.isKind .subscript = true)
    (hm : (t.part "value").isKind .attribute = true)
    (hn : (t.part "value").path? = some p) : t.dataText = p ++ "[...]" := by
  obtain ⟨_, _, _, rfl⟩ := Tree.exists_node_of_isKind is
  rw [Tree.dataText, if_pos hm, hn]
  rfl

theorem Tree.dataText_of_call {nm : String} (is : t.isKind .call = true)
    (hn : (t.part "func").identifier? = some nm) : t.dataText = nm ++ "(...)" := by
  obtain ⟨_, _, _, rfl⟩ := Tree.exists_node_of_isKind is
  rw [Tree.dataText, hn]
  rfl

end DataText

theorem not_startsWith_of_dotless (dotless : '.' ∉ nm.toList) :
    Str.startsWith "sys.argv" nm = false := by
  by_contra starts
  obtain ⟨tl, hf⟩ := isSome_iff_exists.mp (Bool.eq_true_of_not_eq_false starts)
  rw [Text.after?_eq_some hf] at dotless
  exact dotless (mem_append_left _ (by decide))

def isArgument (t : Tree) : Bool :=
  t.isKind .subscript && isSource t

inductive WrittenOut (t : Tree) (use : Use) (arg : Tree) : Prop
  | item (is : isArgument arg = true)
  | spelledAlike {p : String} (is : arg.isKind .attribute = true)
      (hn : arg.path? = some p) (spelled : Str.startsWith "sys.argv" p = true)
      (tainted : TaintedBefore t use.call p)

theorem isSource_cases {t : Tree} (source : isSource t = true) :
    (t.isKind .subscript = true ∧ (t.part "value").isKind .attribute = true ∧
        (t.part "value").path? = some "sys.argv") ∨
      (t.isKind .call = true ∧ ((t.part "func").identifier? = some "input" ∨
        (t.part "func").identifier? = some "raw_input")) := by
  rw [isSource] at source
  split at source
  · next kind =>
    rw [Bool.and_eq_true, beq_iff_eq] at source
    exact Or.inl ⟨by rw [Tree.isKind, kind]; rfl, source.2, source.1⟩
  · next kind =>
    refine Or.inr ⟨by rw [Tree.isKind, kind]; rfl, ?_⟩
    split at source
    · next nm hn =>
      rw [Bool.or_eq_true, beq_iff_eq, beq_iff_eq] at source
      rw [hn]
      exact source.imp (congrArg some) (congrArg some)
    · cases source
  · cases source

theorem Tree.kind_of_path? {t : Tree} {p : String} (hn : t.path? = some p) :
    (t.isKind .name = true ∧ t.word "id" = p) ∨ t.isKind .attribute = true := by
  rw [Tree.path?] at hn
  split at hn
  · next kind => exact Or.inl ⟨by rw [Tree.isKind, kind]; rfl, Option.some.inj hn⟩
  · next kind => exact Or.inr (by rw [Tree.isKind, kind]; rfl)
  · cases hn

theorem writtenOut_iff {t : Tree}
    (dotless : arg.isKind .name = true → '.' ∉ (arg.word "id").toList) :
    WrittenOut t use arg ↔ LetsIn t use arg ∧ Str.startsWith "sys.argv" arg.dataText = true := by
  constructor
  · rintro (is | ⟨is, hn, spelled, tainted⟩)
    · obtain ⟨subscript, source⟩ := Bool.and_eq_true_iff.mp is
      refine ⟨Or.inl source, ?_⟩
      rcases isSource_cases source with ⟨_, hm, hn⟩ | ⟨call, _⟩
      · rw [Tree.dataText_of_subscript subscript hm hn]
        decide
      · cases (Tree.kind?_of_isKind subscript).symm.trans (Tree.kind?_of_isKind call)
    · rw [Tree.dataText_of_attribute is hn]
      refine ⟨Or.inr ⟨_, ?_, tainted⟩, spelled⟩
      rw [Tree.namedPath?, hn, filter_eq_some_iff]
      refine ⟨rfl, ?_⟩
      rw [Bool.not_eq_true', ← Bool.not_eq_true, String.isEmpty_iff]
      rintro rfl
      exact absurd spelled (by decide)
  · rintro ⟨source | ⟨p, hn, tainted⟩, starts⟩
    · rcases isSource_cases source with ⟨subscript, _⟩ | ⟨call, typed⟩
      · exact .item (Bool.and_eq_true_iff.mpr ⟨subscript, source⟩)
      · rcases typed with name | name <;> rw [Tree.dataText_of_call call name] at starts <;>
          exact absurd starts (by decide)
    · obtain ⟨isPath, _⟩ := filter_eq_some_iff.mp hn
      rcases Tree.kind_of_path? isPath with ⟨name, _⟩ | hm
      · rw [Tree.dataText_of_name name, not_startsWith_of_dotless (dotless name)] at starts
        exact absurd starts Bool.false_ne_true
      · rw [Tree.dataText_of_attribute hm isPath] at starts
        exact .spelledAlike hm isPath starts tainted

/-! ## Threats of programs -/

theorem endsOn_toValue_iff {fl : Flow} {n : Int} :
    Findings.EndsOn fl.toValue n ↔ fl.sinkLine = .int n := by
  have hr : fl.toValue.getD "sink_line" (.int 0) = .ok fl.sinkLine := by
    rw [Flow.toValue]
    cases fl.path <;> rfl
  rw [Findings.EndsOn, hr, Except.ok.injEq]

theorem startsOther_toValue (fl : Flow) : Findings.startsOther fl.toValue =
    .ok (Str.startsWith "os.system" fl.sink || Str.occurs "subprocess" fl.sink) := by
  refine Findings.startsOther_eq ?_
  rw [Flow.toValue]
  cases fl.path <;> rfl

theorem injects_toValue (fl : Flow) : Findings.injects fl.toValue =
    .ok (Str.startsWith "sys.argv" fl.source && Str.startsWith "os.system" fl.sink) := by
  refine Findings.injects_eq ?_ ?_
  · rw [Flow.toValue]
    cases fl.path <;> rfl
  · rw [Flow.toValue]
    cases fl.path <;> rfl

theorem startsWith_system_iff (called : sink? call = some sink) :
    Str.startsWith "os.system" sink = true ↔ sink = "os.system" := by
  have hk := Analysis.mem_guardedNames_of_sink? called
  have table : ∀ nm ∈ Analysis.guardedNames,
      Str.startsWith "os.system" nm = true ↔ nm = "os.system" := by decide
  exact table sink hk

def threatsOfFlows (t : Tree) : Outcome (List Findings.Threat) :=
  aggregate (.record [("taint_flows", .list ((flowsOf t).map (·.toValue)))]) .null >>= identify

theorem lineValue_eq_int_iff {t : Tree} {ln : Int} : t.lineValue = .int ln ↔ t.line? = some ln := by
  rw [Tree.lineValue]
  cases t.line? <;> simp

theorem IsProgram.lines_of_threats {t : Tree} (program : IsProgram t) :
    ∃ ths, threatsOfFlows t = .ok ths ∧ ∀ ln : Int, 0 < ln →
      ((∃ th ∈ ths, th.kind = "RCE" ∧ .int ln ∈ th.lines) ↔
        ∃ use sink call arg, Given t use sink call arg ∧ LetsIn t use arg ∧
          (Str.startsWith "os.system" sink || Str.occurs "subprocess" sink) = true ∧
            call.line? = some ln) ∧
      ((∃ th ∈ ths, th.kind = "Command Injection" ∧ .int ln ∈ th.lines) ↔
        ∃ use call arg, Given t use "os.system" call arg ∧
          WrittenOut t use arg ∧ call.line? = some ln) := by
  have shapes : ∀ fl ∈ (flowsOf t).map (·.toValue), Findings.FlowShape fl := by
    intro v hm
    obtain ⟨fl, hi, rfl⟩ := List.mem_map.mp hm
    exact Analysis.flowShape_treeFlow (Analysis.guarded_of_mem_flowsAlong hi)
  have placed : ∀ fl ∈ (flowsOf t).map (·.toValue), ∃ n, Findings.EndsOn fl n := by
    intro v hm
    obtain ⟨fl, hi, rfl⟩ := List.mem_map.mp hm
    obtain ⟨use, sink, call, arg, given, _, hs⟩ :=
      (exists_flow_iff fun _ _ ln => ln = fl.sinkLine).mp ⟨fl, hi, rfl⟩
    obtain ⟨ln, _, hh⟩ := program.placed use.call call given.here given.calls
    exact ⟨ln, endsOn_toValue_iff.mpr (hs.symm.trans (lineValue_eq_int_iff.mpr hh))⟩
  obtain ⟨ths, hd, lines⟩ := Findings.lines_of_flows shapes placed
  refine ⟨ths, hd, fun ln hpos => ?_⟩
  obtain ⟨executed, injected⟩ := lines ln hpos
  rw [executed, injected]
  simp only [List.mem_map, exists_exists_and_eq_and, endsOn_toValue_iff, startsOther_toValue,
    injects_toValue, Except.ok.injEq]
  constructor
  · refine (exists_flow_iff fun _ sink f => (Str.startsWith "os.system" sink ||
      Str.occurs "subprocess" sink) = true ∧ f = .int ln).trans ?_
    simp only [lineValue_eq_int_iff]
  · refine (exists_flow_iff fun src sink f => (Str.startsWith "sys.argv" src &&
      Str.startsWith "os.system" sink) = true ∧ f = .int ln).trans ?_
    simp only [lineValue_eq_int_iff, Bool.and_eq_true]
    constructor
    · rintro ⟨use, sink, call, arg, given, flowing, ⟨starts, shell⟩, hh⟩
      obtain rfl := (startsWith_system_iff given.sink).mp shell
      refine ⟨use, call, arg, given, (writtenOut_iff ?_).mpr ⟨flowing, starts⟩, hh⟩
      obtain ⟨pl, ht⟩ := given.exists_at?_argument
      exact program.dotless pl arg ht
    · rintro ⟨use, call, arg, given, hw, hh⟩
      obtain ⟨pl, ht⟩ := given.exists_at?_argument
      obtain ⟨flowing, starts⟩ := (writtenOut_iff (program.dotless pl arg ht)).mp hw
      exact ⟨use, _, call, arg, given, flowing, ⟨starts, by decide⟩, hh⟩

/-! ## Arguments that are handed on -/

def Tree.IsVariable (t : Tree) (nm : String) : Prop :=
  t.identifier? = some nm ∧ nm ≠ ""

def Tree.AssignsVariable (nd : Tree) (nm : String) : Prop :=
  nd.isKind .assign = true ∧ ∃ tgt ∈ nd.members "targets", tgt.IsVariable nm

inductive HandedOn (t : Tree) : List Place → String → Prop where
  | argument {pl : Place} {asg : Tree} {nm : String}
      (hh : t.at? pl = some asg) (assigns : asg.AssignsVariable nm)
      (data : isArgument (asg.part "value") = true) :
      HandedOn t [pl] nm
  | copied {pl earlier : Place} {before : List Place} {asg : Tree} {nm other : String}
      (hh : t.at? pl = some asg) (assigns : asg.AssignsVariable nm)
      (data : (asg.part "value").IsVariable other) (precedes : earlier < pl)
      (chain : HandedOn t (earlier :: before) other) :
      HandedOn t (pl :: earlier :: before) nm

theorem Tree.IsVariable.isKind {t : Tree} (is : t.IsVariable nm) :
    t.isKind .name = true ∧ t.word "id" = nm := by
  have hn := is.1
  rw [Tree.identifier?] at hn
  split at hn
  · next kind => exact ⟨kind, Option.some.inj hn⟩
  · cases hn

theorem Tree.IsVariable.namedPath? {t : Tree} (is : t.IsVariable nm) : t.namedPath? = some nm := by
  obtain ⟨kind, hs⟩ := is.isKind
  rw [Tree.namedPath?, Tree.path?, Tree.kind?_of_isKind kind, hs, filter_eq_some_iff]
  exact ⟨rfl, by simpa using is.2⟩

theorem Tree.AssignsVariable.assigns {nd : Tree} (assigns : nd.AssignsVariable nm) :
    nd.Assigns nm := by
  obtain ⟨kind, tgt, hm, is⟩ := assigns
  exact ⟨kind, tgt, hm, is.namedPath?⟩

theorem HandedOn.taintedAt {t : Tree} {last : Place} {before : List Place}
    (chain : HandedOn t (last :: before) nm) : TaintedAt t last nm := by
  generalize places : last :: before = all at chain
  induction chain generalizing last before with
  | argument hh assigns data =>
    cases places
    exact .source hh assigns.assigns (Bool.and_eq_true_iff.mp data).2
  | copied hh assigns data precedes _ ih =>
    cases places
    exact .copied hh assigns.assigns data.namedPath? precedes (ih rfl)

/--
Where an argument of the program is handed on to a variable that is run as a command, the line of the
call is reported as remote execution.  It is reported as command injection exactly when the shell is
also called on that line with data that is written out, which the variable is not.
-/
theorem command_injection_iff_written_out {tree : Tree} (program : IsProgram tree) {last : Place}
    {before : List Place} {name : String} (chain : HandedOn tree (last :: before) name) {use : Use}
    {call argument : Tree} (given : Given tree use "os.system" call argument)
    (runs : argument.IsVariable name) (later : last < use.call) :
    ∃ threats line, threatsOfFlows tree = .ok threats ∧ call.line? = some line ∧
      (∃ threat ∈ threats, threat.kind = "RCE" ∧ .int line ∈ threat.lines) ∧
        ¬ WrittenOut tree use argument ∧
          ((∃ threat ∈ threats, threat.kind = "Command Injection" ∧ .int line ∈ threat.lines) ↔
            ∃ other otherCall otherArgument, Given tree other "os.system" otherCall otherArgument ∧
              WrittenOut tree other otherArgument ∧ otherCall.line? = some line) := by
  obtain ⟨threats, done, lines⟩ := program.lines_of_threats
  obtain ⟨line, positive, here⟩ := program.placed use.call call given.here given.calls
  obtain ⟨executed, injected⟩ := lines line positive
  refine ⟨threats, line, done, here, executed.mpr ?_, ?_, injected⟩
  · have flowing : LetsIn tree use argument :=
      Or.inr ⟨name, runs.namedPath?, last, later, chain.taintedAt⟩
    exact ⟨use, _, call, argument, given, flowing, by decide, here⟩
  · obtain ⟨place, there⟩ := given.exists_at?_argument
    intro written
    obtain ⟨_, starts⟩ := (writtenOut_iff (program.dotless place argument there)).mp written
    rw [Tree.dataText_of_name runs.isKind.1,
      not_startsWith_of_dotless (program.dotless place argument there runs.isKind.1)] at starts
    exact absurd starts Bool.false_ne_true

/-! ### A command that is handed on -/

def copiedCommand : Tree :=
  .node (.other "Module")
    [("body", .list [assignmentOn 1 "word" (.node .subscript [("value", attributeOn 1 "sys" "argv"),
            ("slice", .node .constant [("value", .leaf (.int 1))] (some 1) none)] (some 1) none),
        assignmentOn 2 "cmd" (nameOn 2 "word"),
        .node (.other "Expr") [("value", commandCall)] (some 3) none])] none none

/-- The argument is handed on to the command, and no command injection is reported. -/
theorem copiedCommand_not_injection :
    IsProgram copiedCommand ∧ HandedOn copiedCommand [[0, 1], [0, 0]] "cmd" ∧
      ∃ threats, threatsOfFlows copiedCommand = .ok threats ∧
        (∃ threat ∈ threats, threat.kind = "RCE" ∧ .int 3 ∈ threat.lines) ∧
          ∀ threat ∈ threats, threat.kind ≠ "Command Injection" := by
  have program : IsProgram copiedCommand := .of_preorder (by decide) (by decide)
  have assigned : HandedOn copiedCommand [[0, 0]] "word" :=
    .argument rfl ⟨by decide, _, List.mem_singleton_self _, rfl, by decide⟩ (by decide)
  have chain : HandedOn copiedCommand [[0, 1], [0, 0]] "cmd" :=
    .copied rfl ⟨by decide, _, List.mem_singleton_self _, rfl, by decide⟩ ⟨rfl, by decide⟩
      (by decide) assigned
  have given : Given copiedCommand ⟨[0, 2, 0], 0⟩ "os.system" commandCall (nameOn 3 "cmd") :=
    ⟨rfl, by decide, by decide, rfl⟩
  obtain ⟨threats, line, done, here, executed, _⟩ :=
    command_injection_iff_written_out program chain given ⟨rfl, by decide⟩ (by decide)
  cases here
  refine ⟨program, chain, threats, done, executed, ?_⟩
  have kinds : (threatsOfFlows copiedCommand).map (fun all => all.map (·.kind)) = .ok ["RCE"] := rfl
  rw [done] at kinds
  have only : threats.map (·.kind) = ["RCE"] := Except.ok.inj kinds
  intro threat member same
  have listed : threat.kind ∈ threats.map (·.kind) := List.mem_map_of_mem member
  rw [only, same] at listed
  exact absurd listed (by decide)

end Tree

end SourceAudit
