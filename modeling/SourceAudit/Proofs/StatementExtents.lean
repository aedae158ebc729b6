import SourceAudit.Tree.ControlFlow
import Mathlib.Data.List.Sort

/-!
# Extents of control statements

The last line of a control statement is the greatest line that is in sight of it: its own, those of
the statements in its body, of the control statements there and what is in sight of them, and those of
the statements in its other branches.  What is nested in another branch, and all that a handler does,
is out of sight, but the lists of lines have it.  So a control statement contains the lines listed for
it exactly when none of them lies behind all that is in sight.
-/

open List

set_option linter.dupNamespace false

namespace SourceAudit.Tree

/-! ## Statements in branches -/

def Tree.items : Tree → List Tree
  | .list xs => xs
  | _ => []

/-- The statements in the parts of a name. -/
def named (nm : String) (parts : List (String × Tree)) : List Tree :=
  parts.flatMap fun part => if part.1 = nm then part.2.items else []

/-- The statements in the parts of a node that have a name. -/
def Tree.statements (t : Tree) (nm : String) : List Tree :=
  match t with
  | .node _ parts _ _ => named nm parts
  | _ => []

/-- The statements in all branches; only a guarded block has handlers and a final branch. -/
def branchesBy (select : String → List Tree) (guarded : Bool) : List Tree :=
  select "body" ++ select "orelse" ++
    if guarded then
      select "finalbody" ++ (select "handlers").flatMap fun handler => handler.members "body"
    else []

/-- The lines of a statement and of those nested in it through branches of control statements. -/
inductive LineWithin : Tree → Int → Prop where
  | own {stmt : Tree} {ln : Int} (hk : stmt.line? = some ln) :
      LineWithin stmt ln
  | branch {stmt nested : Tree} {ln : Int} (control : isControl stmt = true)
      (hm : nested ∈ branchesBy stmt.statements (stmt.isKind .tryBlock))
      (within : LineWithin nested ln) : LineWithin stmt ln

/-- The lines that count for the end of a control statement. -/
inductive LineInSight : Tree → Int → Prop where
  | own {nd : Tree} : LineInSight nd (nd.line?.getD 0)
  | body {nd stmt : Tree} {ln : Int} (hm : stmt ∈ nd.statements "body")
      (hk : stmt.line? = some ln) : LineInSight nd ln
  | other {nd stmt : Tree} {ln : Int}
      (hm : stmt ∈ nd.statements "orelse" ++ nd.statements "finalbody")
      (hk : stmt.line? = some ln) : LineInSight nd ln
  | nested {nd stmt : Tree} {ln : Int} (hm : stmt ∈ nd.statements "body")
      (control : isControl stmt = true) (sight : LineInSight stmt ln) :
      LineInSight nd ln

theorem sizeOf_lt_of_mem_statements {t stmt : Tree} {nm : String}
    (hm : stmt ∈ t.statements nm) : sizeOf stmt < sizeOf t := by
  cases t with
  | node k parts ln col =>
    obtain ⟨⟨label, part⟩, hi, ht⟩ := mem_flatMap.mp hm
    have smaller := sizeOf_lt_of_mem hi
    split_ifs at ht with same
    · cases part with
      | list xs =>
        have least := sizeOf_lt_of_mem (show stmt ∈ xs from ht)
        simp only [Prod.mk.sizeOf_spec, Tree.list.sizeOf_spec, Tree.node.sizeOf_spec] at smaller ⊢
        omega
      | node k parts ln col => cases ht
      | leaf v => cases ht
    · cases ht
  | list xs => cases hm
  | leaf v => cases hm

theorem mem_statements_of_mem_members {t stmt : Tree} {nm : String}
    (hm : stmt ∈ t.members nm) : stmt ∈ t.statements nm := by
  rw [Tree.members] at hm
  cases t with
  | node k parts ln col =>
    split at hm
    · next xs hf =>
      obtain ⟨⟨label, part⟩, hh, rfl⟩ := Option.map_eq_some_iff.mp hf
      refine mem_flatMap.mpr ⟨_, mem_of_find?_eq_some hh, ?_⟩
      rw [if_pos (by simpa using find?_some hh)]
      exact hm
    · cases hm
  | list xs => cases hm
  | leaf v => cases hm

section Choices

variable {P : Tree → Prop}

theorem exists_mem_named_cons {wanted nm : String} {part : Tree} {tl : List (String × Tree)} :
    (∃ x ∈ named wanted ((nm, part) :: tl), P x) ↔ (nm = wanted ∧ ∃ x ∈ part.items, P x) ∨
        ∃ x ∈ named wanted tl, P x := by
  by_cases hs : nm = wanted
  · simp [named, hs, or_and_right, exists_or]
  · simp [named, hs]

theorem exists_mem_branchesBy {select : String → List Tree} {guarded : Bool} :
    (∃ x ∈ branchesBy select guarded, P x) ↔
      (∃ x ∈ select "body", P x) ∨ (∃ x ∈ select "orelse", P x) ∨
        (guarded = true ∧ ((∃ x ∈ select "finalbody", P x) ∨
          ∃ handler ∈ select "handlers", ∃ x ∈ handler.members "body", P x)) := by
  cases guarded
  · simp [branchesBy, or_and_right, exists_or]
  · simp only [branchesBy, if_true, mem_append, mem_flatMap]
    grind

end Choices

/-- What holds of a statement whenever it holds of those in its branches holds of every one. -/
theorem branch_induction {motive : Tree → Prop} (step : ∀ tree : Tree,
      (∀ guarded, ∀ nested ∈ branchesBy tree.statements guarded, motive nested) → motive tree)
    (tree : Tree) : motive tree := by
  apply step
  intro guarded nested member
  have smaller : sizeOf nested < sizeOf tree := by
    obtain ⟨_, body, rfl⟩ | ⟨_, other, rfl⟩ | ⟨_, ⟨_, final, rfl⟩ | ⟨handler, guard, _, body, rfl⟩⟩ :=
      exists_mem_branchesBy.mp ⟨nested, member, rfl⟩
    · exact sizeOf_lt_of_mem_statements body
    · exact sizeOf_lt_of_mem_statements other
    · exact sizeOf_lt_of_mem_statements final
    · exact Nat.lt_trans (sizeOf_lt_of_mem_statements (mem_statements_of_mem_members body))
        (sizeOf_lt_of_mem_statements guard)
  exact branch_induction step nested
termination_by sizeOf tree

/-! ## Listed lines -/

variable {ln : Int}

theorem mem_itemDepths {xs : List Tree} :
    ln ∈ itemDepths xs ↔ ∃ x ∈ xs, ln ∈ statementDepths x := by
  induction xs with
  | nil => simp [itemDepths]
  | cons x tl ih => simp [itemDepths, ih]

theorem mem_branchDepths {part : Tree} :
    ln ∈ branchDepths part ↔ ∃ x ∈ part.items, ln ∈ statementDepths x := by
  cases part with
  | list xs => exact mem_itemDepths
  | node k parts ln col => simp [branchDepths, Tree.items]
  | leaf v => simp [branchDepths, Tree.items]

theorem handlerBody_eq (handler : Tree) :
    handlerBody handler = itemDepths (handler.members "body") := by
  cases handler with
  | node k parts ln col =>
    rw [handlerBody, Tree.members, Tree.part?]
    induction parts with
    | nil => rfl
    | cons part tl ih =>
      obtain ⟨nm, part⟩ := part
      by_cases body : nm = "body"
      · rw [bodyPart, if_pos body, find?_cons_of_pos (by simpa using body)]
        cases part <;> rfl
      · rw [bodyPart, if_neg body, find?_cons_of_neg (by simpa using body)]
        exact ih
  | list xs => rfl
  | leaf v => rfl

theorem mem_handlerDepths {part : Tree} :
    ln ∈ handlerDepths part ↔
      ∃ handler ∈ part.items, ∃ x ∈ handler.members "body", ln ∈ statementDepths x := by
  have bodies : ∀ handlers, ln ∈ handlerBodies handlers ↔
      ∃ handler ∈ handlers, ∃ x ∈ handler.members "body", ln ∈ statementDepths x := by
    intro handlers
    induction handlers with
    | nil => simp [handlerBodies]
    | cons handler tl ih =>
      rw [handlerBodies, mem_append, ih, handlerBody_eq, mem_itemDepths, exists_mem_cons_iff]
  cases part with
  | list xs => exact bodies xs
  | node k parts ln col => simp [handlerDepths, Tree.items]
  | leaf v => simp [handlerDepths, Tree.items]

theorem mem_partDepths {k : NodeKind} {parts : List (String × Tree)} :
    ln ∈ partDepths k parts ↔
      ∃ x ∈ branchesBy (fun nm => named nm parts) (k = .tryBlock), ln ∈ statementDepths x := by
  induction parts with
  | nil => simp [partDepths, branchesBy, named]
  | cons part tl ih =>
    obtain ⟨nm, part⟩ := part
    rw [partDepths, mem_append, ih, exists_mem_branchesBy, exists_mem_branchesBy]
    simp only [exists_mem_named_cons, decide_eq_true_eq]
    split_ifs with branch final handlers
    · rw [mem_branchDepths]
      grind
    · rw [mem_branchDepths]
      grind
    · rw [mem_handlerDepths]
      grind
    · grind

theorem mem_statementDepths_cases {t : Tree} :
    ln ∈ statementDepths t ↔ t.line? = some ln ∨ isControl t = true ∧
      ∃ x ∈ branchesBy t.statements (t.isKind .tryBlock), ln ∈ statementDepths x := by
  cases t with
  | node k parts pl col =>
    have control : isControl (.node k parts pl col) = true ↔
        k = .ifStatement ∨ k = .forLoop ∨ k = .whileLoop ∨ k = .tryBlock := by
      simp [isControl, Tree.isKind, Tree.kind?, or_assoc]
    have guarded : Tree.isKind (.node k parts pl col) .tryBlock = decide (k = .tryBlock) := by
      cases k <;> rfl
    rw [statementDepths, mem_append, Option.mem_toList, control, guarded]
    refine or_congr Iff.rfl ?_
    split_ifs with nested
    · rw [mem_partDepths, and_iff_right nested]
      rfl
    · simp [nested]
  | list xs => simp [statementDepths, Tree.line?, isControl, Tree.isKind, Tree.kind?]
  | leaf v => simp [statementDepths, Tree.line?, isControl, Tree.isKind, Tree.kind?]

/-- The lines listed for a statement are those of the statements nested in it. -/
theorem mem_statementDepths {t : Tree} : ln ∈ statementDepths t ↔ LineWithin t ln := by
  constructor
  · induction t using branch_induction with
    | step t ih =>
      rw [mem_statementDepths_cases]
      rintro (own | ⟨control, x, hm, hi⟩)
      · exact .own own
      · exact .branch control hm (ih _ x hm hi)
  · intro within
    induction within with
    | own hk => exact mem_statementDepths_cases.mpr (.inl hk)
    | branch control hm _ ih =>
      exact mem_statementDepths_cases.mpr (.inr ⟨control, _, hm, ih⟩)

/-- All lines that are reported for the branches of a control statement. -/
def ControlStructure.lines (f : ControlStructure) : List Int :=
  match f.kind with
  | .guarded => f.body ++ f.handlers ++ f.otherwise ++ f.final
  | _ => f.body ++ f.otherwise

theorem mem_bodyLines {stmts : List Tree} :
    ln ∈ bodyLines stmts ↔ ∃ x ∈ stmts, ln ∈ statementDepths x := by
  rw [bodyLines, risingLines, mem_mergeSort, mem_eraseDups, mem_itemDepths]

theorem nodup_eraseDups (ls : List Int) : ls.eraseDups.Nodup := by
  cases ls with
  | nil => exact nodup_nil
  | cons ln tl =>
    rw [eraseDups_cons, nodup_cons, mem_eraseDups]
    exact ⟨by simp, nodup_eraseDups _⟩
termination_by ls.length
decreasing_by exact Nat.lt_succ_of_le (length_filter_le _ tl)

theorem pairwise_risingLines (ls : List Int) : (risingLines ls).Pairwise (· < ·) := by
  have sorted : (risingLines ls).Pairwise fun a b => decide (a ≤ b) = true :=
    pairwise_mergeSort (by grind) (by grind) ls.eraseDups
  have distinct : (risingLines ls).Nodup := (mergeSort_perm _ _).nodup_iff.mpr (nodup_eraseDups ls)
  refine (sorted.and distinct).imp fun ⟨le, ne⟩ => ?_
  exact Int.lt_iff_le_and_ne.mpr ⟨of_decide_eq_true le, ne⟩

/-- The statements of a list, and those that the branches of its control statements lead to. -/
inductive ReachedFrom : List Tree → Tree → Prop where
  | here {stmts : List Tree} {stmt : Tree} (hm : stmt ∈ stmts) : ReachedFrom stmts stmt
  | branch {stmts : List Tree} {outer stmt : Tree} (hm : outer ∈ stmts)
      (control : isControl outer = true)
      (reached : ReachedFrom (branchesBy outer.statements (outer.isKind .tryBlock)) stmt) :
      ReachedFrom stmts stmt

theorem exists_lineWithin_iff {stmts : List Tree} :
    (∃ x ∈ stmts, LineWithin x ln) ↔ ∃ x, ReachedFrom stmts x ∧ x.line? = some ln := by
  constructor
  · rintro ⟨x, hm, within⟩
    induction within generalizing stmts with
    | own hk => exact ⟨_, .here hm, hk⟩
    | branch control inner _ ih =>
      obtain ⟨y, reached, hk⟩ := ih inner
      exact ⟨y, .branch hm control reached, hk⟩
  · rintro ⟨x, reached, hk⟩
    induction reached with
    | here hm => exact ⟨_, hm, .own hk⟩
    | branch hm control _ ih =>
      obtain ⟨y, inner, within⟩ := ih hk
      exact ⟨_, hm, .branch control inner within⟩

/--
The lines collected for a list of statements stand in strictly rising order.  They are the lines of
the statements in the list and of those that the branches of control statements lead to, and no other.
-/
theorem bodyLines_rise_and_are_reached (statements : List Tree) :
    (bodyLines statements).Pairwise (· < ·) ∧
      ∀ line, line ∈ bodyLines statements ↔
        ∃ statement, ReachedFrom statements statement ∧ statement.line? = some line := by
  refine ⟨pairwise_risingLines _, fun line => ?_⟩
  simp only [mem_bodyLines, mem_statementDepths, exists_lineWithin_iff]

theorem mem_lines_of_mem_structureAt {nd : Tree} {f : ControlStructure} (hm : f ∈ structureAt nd) :
    ln ∈ f.lines ↔ ∃ x ∈ branchesBy nd.members (nd.isKind .tryBlock), ln ∈ statementDepths x := by
  rw [exists_mem_branchesBy]
  cases nd with
  | node k parts pl col =>
    cases k with
    | ifStatement | forLoop | whileLoop =>
      cases mem_singleton.mp hm
      simp [ControlStructure.lines, mem_bodyLines, Tree.isKind, Tree.kind?]
    | tryBlock =>
      cases mem_singleton.mp hm
      have guarded : Tree.isKind (.node .tryBlock parts pl col) .tryBlock = true := rfl
      simp only [ControlStructure.lines, mem_append, mem_flatMap, mem_bodyLines, guarded]
      grind
    | _ => cases hm
  | list xs => cases hm
  | leaf v => cases hm

/-! ## Ends -/

/-- A statement has no line behind a bound. -/
def EndsBy (bound : Int) (stmt : Tree) : Prop :=
  ∀ ln, stmt.line? = some ln → ln ≤ bound

variable {bound highest : Int}

theorem endOfItems_le_iff {xs : List Tree} :
    endOfItems highest xs ≤ bound ↔ highest ≤ bound ∧
      ∀ x ∈ xs, EndsBy bound x ∧ (isControl x = true → endLine x ≤ bound) := by
  induction xs generalizing highest with
  | nil => simp [endOfItems]
  | cons x tl ih =>
    rw [endOfItems, ih, forall_mem_cons, EndsBy]
    cases x.line? <;> split_ifs with control <;> simp [control, and_assoc]

theorem endOfStatements_le_iff {part : Tree} :
    endOfStatements highest part ≤ bound ↔ highest ≤ bound ∧ ∀ x ∈ part.items, EndsBy bound x := by
  cases part with
  | list xs =>
    rw [endOfStatements, Tree.items]
    induction xs generalizing highest with
    | nil => simp
    | cons x tl ih =>
      rw [foldl_cons, ih, forall_mem_cons, EndsBy]
      cases x.line? <;> simp [and_assoc]
  | node k parts ln col => simp [endOfStatements, Tree.items]
  | leaf v => simp [endOfStatements, Tree.items]

theorem endOfBody_le_iff {part : Tree} :
    endOfBody highest part ≤ bound ↔ highest ≤ bound ∧
      ∀ x ∈ part.items, EndsBy bound x ∧ (isControl x = true → endLine x ≤ bound) := by
  cases part with
  | list xs => exact endOfItems_le_iff
  | node k parts ln col => simp [endOfBody, Tree.items]
  | leaf v => simp [endOfBody, Tree.items]

theorem forall_mem_named_cons {wanted nm : String} {part : Tree} {tl : List (String × Tree)}
    {P : Tree → Prop} :
    (∀ x ∈ named wanted ((nm, part) :: tl), P x) ↔ (nm = wanted → ∀ x ∈ part.items, P x) ∧
        ∀ x ∈ named wanted tl, P x := by
  by_cases hs : nm = wanted
  · simp [named, hs, or_imp, forall_and]
  · simp [named, hs]

theorem endOfParts_le_iff {parts : List (String × Tree)} :
    endOfParts highest parts ≤ bound ↔ highest ≤ bound ∧ (∀ x ∈ named "body" parts,
        EndsBy bound x ∧ (isControl x = true → endLine x ≤ bound)) ∧
      (∀ x ∈ named "orelse" parts, EndsBy bound x) ∧
        ∀ x ∈ named "finalbody" parts, EndsBy bound x := by
  induction parts generalizing highest with
  | nil => simp [endOfParts, named]
  | cons part tl ih =>
    obtain ⟨nm, part⟩ := part
    rw [endOfParts, ih, forall_mem_named_cons, forall_mem_named_cons, forall_mem_named_cons]
    split_ifs with body other
    · rw [endOfBody_le_iff]
      grind
    · rw [endOfStatements_le_iff]
      grind
    · grind

/-- The end of a statement is the greatest line in sight. -/
theorem endLine_le_iff {t : Tree} : endLine t ≤ bound ↔ ∀ ln, LineInSight t ln → ln ≤ bound := by
  induction t using branch_induction with
  | step t ih =>
    have deeper : ∀ x ∈ t.statements "body",
        (endLine x ≤ bound ↔ ∀ ln, LineInSight x ln → ln ≤ bound) :=
      fun x hm => ih false x (by simp [branchesBy, hm])
    have parts : endLine t ≤ bound ↔ t.line?.getD 0 ≤ bound ∧ (∀ x ∈ t.statements "body",
          EndsBy bound x ∧ (isControl x = true → endLine x ≤ bound)) ∧
        (∀ x ∈ t.statements "orelse", EndsBy bound x) ∧
          ∀ x ∈ t.statements "finalbody", EndsBy bound x := by
      cases t with
      | node k parts pl col => exact endOfParts_le_iff
      | list xs => simp [endLine, Tree.statements, Tree.line?]
      | leaf v => simp [endLine, Tree.statements, Tree.line?]
    rw [parts]
    constructor
    · rintro ⟨own, body, ho, final⟩ ln sight
      cases sight with
      | own => exact own
      | body hm hk => exact (body _ hm).1 ln hk
      | other hm hk =>
        rcases mem_append.mp hm with inOther | inFinal
        · exact ho _ inOther ln hk
        · exact final _ inFinal ln hk
      | nested hm control sight =>
        exact (deeper _ hm).mp ((body _ hm).2 control) ln sight
    · intro all
      refine ⟨all _ .own, fun x hm => ⟨fun ln hk => all ln (.body hm hk), ?_⟩,
        fun x hm ln hk => all ln (.other (mem_append_left _ hm) hk),
        fun x hm ln hk => all ln (.other (mem_append_right _ hm) hk)⟩
      intro control
      exact (deeper x hm).mpr fun ln sight => all ln (.nested hm control sight)

theorem le_endLine_iff {t : Tree} :
    ln ≤ endLine t ↔ ∃ further, LineInSight t further ∧ ln ≤ further := by
  rw [← not_lt, ← Int.le_sub_one_iff, endLine_le_iff]
  simp only [not_forall, Int.le_sub_one_iff, not_lt, exists_prop]

theorem first_eq_and_last_eq {nd : Tree} {f : ControlStructure} (hm : f ∈ structureAt nd) :
    f.first = nd.line?.getD 0 ∧ f.last = endLine nd := by
  rw [structureAt] at hm
  split at hm
  · cases hm
  · cases mem_singleton.mp hm
    exact ⟨rfl, rfl⟩

/--
The last line of a control statement is the greatest line in sight, and not before the first.  All
lines listed for it are within it exactly when none in its branches lies behind all that is in sight.
-/
theorem lines_le_last_iff_in_sight (tree : Tree) {found : ControlStructure}
    (member : found ∈ structuresOf tree) :
    found.first ≤ found.last ∧
      ∃ node ∈ tree.preorder, found ∈ structureAt node ∧
        LineInSight node found.last ∧ (∀ line, LineInSight node line → line ≤ found.last) ∧
        ((∀ line ∈ found.lines, line ≤ found.last) ↔
          ∀ statement ∈ branchesBy node.members (node.isKind .tryBlock),
            ∀ line, LineWithin statement line →
              ∃ further, LineInSight node further ∧ line ≤ further) := by
  obtain ⟨node, there, here⟩ := List.mem_flatMap.mp member
  obtain ⟨first, last⟩ := first_eq_and_last_eq here
  have upper : ∀ line, LineInSight node line → line ≤ endLine node :=
    endLine_le_iff.mp (Int.le_refl _)
  obtain ⟨further, sight, least⟩ := le_endLine_iff.mp (Int.le_refl (endLine node))
  have attained : further = endLine node := Int.le_antisymm (upper further sight) least
  rw [first, last]
  refine ⟨upper _ .own, node, there, here, attained ▸ sight, upper, ?_⟩
  simp only [mem_lines_of_mem_structureAt here, mem_statementDepths, le_endLine_iff]
  constructor
  · intro within statement listed line inside
    exact within line ⟨statement, listed, inside⟩
  · rintro within line ⟨statement, listed, inside⟩
    exact within statement listed line inside

/-- What a handler does lies behind the end of its block. -/
theorem handler_behind_last :
    ∃ found ∈ structuresOf (.node .tryBlock
        [("body", .list [.node (.other "Pass") [] (some 2) (some 4)]),
         ("handlers", .list [.node (.other "ExceptHandler")
           [("body", .list [.node (.other "Pass") [] (some 4) (some 4)])] (some 3) (some 0)])]
        (some 1) (some 0)),
      found.first ≤ found.last ∧ found.handlers = [4] ∧ found.last = 2 := by
  refine ⟨_, List.mem_singleton.mpr rfl, ?_, by decide +kernel, by decide⟩
  exact (lines_le_last_iff_in_sight (.node .tryBlock _ _ _) (List.mem_singleton.mpr rfl)).1

end SourceAudit.Tree
