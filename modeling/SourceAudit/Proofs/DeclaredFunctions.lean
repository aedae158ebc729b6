import SourceAudit.Tree.Symbols
import Mathlib.Data.List.Basic

/-!
# Declared functions

A tree declares each function once: as a method when it is a statement of the body of a class, and as
a plain function otherwise.  The recorded symbols are those declared and, for every method, one more
that takes it for a plain function.  So they are the declared ones exactly where no class has a
method.
-/

open List

set_option linter.dupNamespace false

namespace SourceAudit.Tree

/-- A function as a symbol, of a class or of none. -/
def symbolOf (owner : Option String) (nd : Tree) : FunctionSymbol :=
  { name := nd.word "name", line := nd.lineValue, owner }

/-- The functions among statements. -/
def functionsAmong (stmts : List Tree) : List Tree :=
  stmts.filter isFunction

/-- The class that owns the statements of a node's body. -/
def ownerOf (nd : Tree) : Option String :=
  if nd.isKind .classDefinition then some (nd.word "name") else none

mutual

/-- The functions of a tree, each once; `owner` is the class whose body the tree is a statement of. -/
def declared (owner : Option String) : Tree → List FunctionSymbol
  | .node k parts ln col =>
    (functionsAmong [.node k parts ln col]).map (symbolOf owner) ++
      declaredParts (ownerOf (.node k parts ln col)) parts
  | .list xs => declaredItems none xs
  | .leaf _ => []

/-- The functions in the parts of a node, where `owner` owns the statements of the body to come. -/
def declaredParts (owner : Option String) : List (String × Tree) → List FunctionSymbol
  | [] => []
  | (nm, .list xs) :: tl =>
    if nm == "body" then declaredItems owner xs ++ declaredParts none tl
    else declaredItems none xs ++ declaredParts owner tl
  | (nm, part) :: tl =>
    declared none part ++ declaredParts (if nm == "body" then none else owner) tl

def declaredItems (owner : Option String) : List Tree → List FunctionSymbol
  | [] => []
  | x :: tl => declared owner x ++ declaredItems owner tl

end

/-- The functions that an owner has among statements. -/
def owned (owner : Option String) (stmts : List Tree) : List Tree :=
  if owner.isSome then functionsAmong stmts else []

/-- The functions that are statements of the body of a class. -/
def methods (nd : Tree) : List Tree :=
  owned (ownerOf nd) (nd.members "body")

theorem functionSymbols_eq (nd : Tree) :
    functionSymbols nd = (functionsAmong [nd]).map (symbolOf none) ++
      (methods nd).map (symbolOf (ownerOf nd)) := by
  rw [functionSymbols, methods, owned, ownerOf, functionsAmong, filter_singleton]
  by_cases function : isFunction nd = true
  · have hp : nd.isKind .classDefinition = false := by
      cases nd with
      | node k parts ln col =>
        cases k <;> first | rfl | cases function
      | list xs => rfl
      | leaf v => rfl
    simp [function, hp, symbolOf]
  · by_cases isClass : nd.isKind .classDefinition = true
    · rw [if_neg function, if_pos isClass, if_pos isClass, eq_false_of_ne_true function,
        ← filterMap_filter]
      exact congrFun filterMap_eq_map _
    · simp [function, isClass]

section Counting

/-!
Both lists are compared by how many symbols of any sort they have.  The recorded symbols of a tree
and the symbols of the methods it hands to an owner make up the declared symbols and one plain symbol
for each of the methods.
-/

variable (sort : FunctionSymbol → Bool)

/-- The symbols of a sort that are recorded for nodes. -/
def recordedCount (nodes : List Tree) : Nat :=
  (nodes.flatMap functionSymbols).countP sort

/-- The plain symbols of a sort for the methods among nodes. -/
def repeatedCount (nodes : List Tree) : Nat :=
  ((nodes.flatMap methods).map (symbolOf none)).countP sort

/-- The symbols of a sort for the functions that an owner has among statements. -/
def ownedCount (owner shown : Option String) (stmts : List Tree) : Nat :=
  ((owned owner stmts).map (symbolOf shown)).countP sort

/-- The statements of the first body among parts. -/
def bodyAmong (parts : List (String × Tree)) : List Tree :=
  match (parts.find? fun part => part.1 == "body").map Prod.snd with
  | some (.list xs) => xs
  | _ => []

theorem recordedCount_append (nodes more : List Tree) :
    recordedCount sort (nodes ++ more) = recordedCount sort nodes + recordedCount sort more := by
  rw [recordedCount, flatMap_append, countP_append]
  rfl

theorem repeatedCount_append (nodes more : List Tree) :
    repeatedCount sort (nodes ++ more) = repeatedCount sort nodes + repeatedCount sort more := by
  rw [repeatedCount, flatMap_append, map_append, countP_append]
  rfl

theorem ownedCount_none (shown : Option String) (stmts : List Tree) :
    ownedCount sort none shown stmts = 0 := rfl

theorem ownedCount_cons (owner shown : Option String) (x : Tree) (tl : List Tree) :
    ownedCount sort owner shown (x :: tl) =
      ownedCount sort owner shown [x] + ownedCount sort owner shown tl := by
  cases owner with
  | none => rfl
  | some nm =>
    rw [ownedCount, ownedCount, ownedCount, ← countP_append, ← map_append]
    exact congrArg (fun functions => (functions.map (symbolOf shown)).countP sort)
      (filter_append [x] tl)

/-- A part that is no list has no statements for the owner. -/
theorem recordedCount_other_part {part : Tree} (ho : ∀ xs, part ≠ .list xs) (nm : String)
    {tl : List (String × Tree)} (hh : recordedCount sort part.preorder =
      (declared none part).countP sort + repeatedCount sort part.preorder)
    (behind : ∀ owner : Option String,
      recordedCount sort (Tree.preorderParts tl) + ownedCount sort owner owner (bodyAmong tl) =
        (declaredParts owner tl).countP sort + repeatedCount sort (Tree.preorderParts tl) +
          ownedCount sort owner none (bodyAmong tl))
    (owner : Option String) :
    recordedCount sort (Tree.preorderParts ((nm, part) :: tl)) +
        ownedCount sort owner owner (bodyAmong ((nm, part) :: tl)) =
      (declaredParts owner ((nm, part) :: tl)).countP sort +
        repeatedCount sort (Tree.preorderParts ((nm, part) :: tl)) +
          ownedCount sort owner none (bodyAmong ((nm, part) :: tl)) := by
  rw [Tree.preorderParts, declaredParts, recordedCount_append, repeatedCount_append, countP_append]
  swap
  · exact ho
  by_cases body : (nm == "body") = true
  · have none_left := behind none
    rw [ownedCount_none] at none_left
    have hf : bodyAmong ((nm, part) :: tl) = [] := by
      cases part <;> simp_all [bodyAmong]
    have empty : owned owner [] = [] := by cases owner <;> rfl
    rw [hf, if_pos body, ownedCount, ownedCount, empty, map_nil, map_nil, countP_nil]
    omega
  · have all_left := behind owner
    have hf : bodyAmong ((nm, part) :: tl) = bodyAmong tl := by
      simp [bodyAmong, body]
    rw [hf, if_neg body]
    omega

mutual

theorem recordedCount_preorder (owner : Option String) : (t : Tree) →
    recordedCount sort t.preorder + ownedCount sort owner owner [t] =
      (declared owner t).countP sort + repeatedCount sort t.preorder +
        ownedCount sort owner none [t]
  | .node k parts ln col => by
    have hi := recordedCount_preorderParts (ownerOf (.node k parts ln col)) parts
    generalize hs : Tree.node k parts ln col = nd at hi
    have handed : ((functionsAmong [nd]).map (symbolOf none)).countP sort +
          ownedCount sort owner owner [nd] =
        ((functionsAmong [nd]).map (symbolOf owner)).countP sort +
          ownedCount sort owner none [nd] := by
      cases owner with
      | none => rfl
      | some nm => exact Nat.add_comm _ _
    have hh : recordedCount sort [nd] = ((functionsAmong [nd]).map (symbolOf none)).countP sort +
          ownedCount sort (ownerOf nd) (ownerOf nd) (bodyAmong parts) := by
      rw [recordedCount, flatMap_singleton, functionSymbols_eq, countP_append, ← hs]
      rfl
    have repeated : repeatedCount sort [nd] =
        ownedCount sort (ownerOf nd) none (bodyAmong parts) := by
      rw [repeatedCount, flatMap_singleton, ← hs]
      rfl
    rw [← hs, Tree.preorder, declared, hs, ← singleton_append, recordedCount_append,
      repeatedCount_append, countP_append]
    omega
  | .list xs => by
    have hi := recordedCount_preorderItems none xs
    have empty : owned owner [.list xs] = [] := by cases owner <;> rfl
    rw [ownedCount, ownedCount, empty, declared, Tree.preorder]
    exact hi
  | .leaf v => by
    have empty : owned owner [.leaf v] = [] := by cases owner <;> rfl
    rw [ownedCount, ownedCount, empty]
    rfl

theorem recordedCount_preorderParts (owner : Option String) : (parts : List (String × Tree)) →
    recordedCount sort (Tree.preorderParts parts) + ownedCount sort owner owner (bodyAmong parts) =
      (declaredParts owner parts).countP sort + repeatedCount sort (Tree.preorderParts parts) +
        ownedCount sort owner none (bodyAmong parts)
  | [] => by cases owner <;> rfl
  | (nm, .list xs) :: tl => by
    rw [Tree.preorderParts, Tree.preorder, declaredParts, recordedCount_append,
      repeatedCount_append]
    by_cases body : (nm == "body") = true
    · have hh := recordedCount_preorderItems owner xs
      have behind := recordedCount_preorderParts none tl
      rw [ownedCount_none] at behind
      have hf : bodyAmong ((nm, .list xs) :: tl) = xs := by
        simp [bodyAmong, body]
      rw [hf, if_pos body, countP_append]
      omega
    · have hh := recordedCount_preorderItems none xs
      have behind := recordedCount_preorderParts owner tl
      rw [ownedCount_none] at hh
      have hf : bodyAmong ((nm, .list xs) :: tl) = bodyAmong tl := by
        simp [bodyAmong, body]
      rw [hf, if_neg body, countP_append]
      omega
  | (nm, .leaf v) :: tl =>
    recordedCount_other_part sort (fun _ => Tree.noConfusion) nm rfl
      (fun owner => recordedCount_preorderParts owner tl) owner
  | (nm, .node k parts ln col) :: tl =>
    recordedCount_other_part sort (fun _ => Tree.noConfusion) nm
      (recordedCount_preorder none (.node k parts ln col))
      (fun owner => recordedCount_preorderParts owner tl) owner

theorem recordedCount_preorderItems (owner : Option String) : (xs : List Tree) →
    recordedCount sort (Tree.preorderItems xs) + ownedCount sort owner owner xs =
      (declaredItems owner xs).countP sort + repeatedCount sort (Tree.preorderItems xs) +
        ownedCount sort owner none xs
  | [] => by cases owner <;> rfl
  | x :: tl => by
    have hh := recordedCount_preorder owner x
    have behind := recordedCount_preorderItems owner tl
    rw [Tree.preorderItems, declaredItems, recordedCount_append, repeatedCount_append,
      countP_append, ownedCount_cons, ownedCount_cons sort owner none]
    omega

end

end Counting

/--
The recorded functions are those declared and one more, taken for a plain function, for every method;
they are the declared ones exactly where no class has a method.
-/
theorem functionsOf_perm_declared (tree : Tree) :
    (functionsOf tree).Perm
        (declared none tree ++ (tree.preorder.flatMap methods).map (symbolOf none)) ∧
      ((functionsOf tree).Perm (declared none tree) ↔
        ∀ node ∈ tree.preorder, node.isKind .classDefinition = true →
          ∀ item ∈ node.members "body", isFunction item = false) := by
  classical
  have all : (functionsOf tree).Perm
      (declared none tree ++ (tree.preorder.flatMap methods).map (symbolOf none)) := by
    refine List.perm_iff_count.mpr fun symbol => ?_
    rw [List.count_append]
    exact recordedCount_preorder (· == symbol) none tree
  refine ⟨all, ?_⟩
  have nobody : tree.preorder.flatMap methods = [] ↔
      ∀ node ∈ tree.preorder, node.isKind .classDefinition = true →
        ∀ item ∈ node.members "body", isFunction item = false := by
    rw [List.flatMap_eq_nil_iff]
    refine forall₂_congr fun node _ => ?_
    rw [methods, owned, ownerOf]
    by_cases isClass : node.isKind .classDefinition = true
    · simp [isClass, functionsAmong]
    · simp [isClass]
  rw [← nobody]
  constructor
  · intro alone
    have length := (alone.symm.trans all).length_eq
    rw [List.length_append, List.length_map] at length
    exact List.length_eq_zero_iff.mp (by omega)
  · intro empty
    rwa [empty, List.map_nil, List.append_nil] at all

end SourceAudit.Tree
