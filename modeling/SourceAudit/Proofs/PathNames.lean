import SourceAudit.Proofs.PathParts

/-!
# Names at the end of paths

A path can be written in many ways, but all of them end in the name of what it names.
-/

open List

namespace SourceAudit.Path

def EndsIn (p nm : String) : Prop :=
  p = nm ∨ ∃ dir, p = dir ++ "/" ++ nm

section

variable {p nm : String}

theorem exists_parts_of_endsIn (hn : IsName nm) (ends : EndsIn p nm) :
    ∃ kept, parts p = kept ++ [nm] := by
  rcases ends with rfl | ⟨dir, rfl⟩
  · refine ⟨[], ?_⟩
    rw [parts, splitOn_unslashed hn.unslashed, resolveParts_eq, foldl_cons, foldl_nil,
      pushPart_name hn]
    rfl
  · exact ⟨_, resolveParts_name hn _ dir⟩

/-! ## Joining -/

theorem EndsIn.ne_empty (hn : IsName nm) (ends : EndsIn p nm) : p.isEmpty = false := by
  rw [Bool.eq_false_iff, ne_eq, String.isEmpty_iff]
  rintro rfl
  rcases ends with alone | ⟨dir, joined⟩
  · exact hn.nonempty alone.symm
  · have lengths := congrArg (fun t => t.toList.length) joined
    simp [String.toList_append] at lengths

theorem EndsIn.join (ends : EndsIn p nm) (dir : String) : EndsIn (Path.join dir p) nm := by
  have behind (before : String) : EndsIn (before ++ "/" ++ p) nm := by
    rcases ends with rfl | ⟨further, rfl⟩
    · exact Or.inr ⟨before, rfl⟩
    · exact Or.inr ⟨before ++ "/" ++ further, by simp [String.append_assoc]⟩
  rw [Path.join]
  split_ifs with alone slashed
  · exact ends
  · rw [Bool.or_eq_true] at slashed
    rcases slashed with empty | slashed
    · rw [String.isEmpty_iff.mp empty, String.empty_append]
      exact ends
    · obtain ⟨before, shape⟩ := getLast?_eq_some_iff.mp (beq_iff_eq.mp slashed)
      have he : dir = String.ofList before ++ "/" := by
        rw [← String.toList_inj, shape]
        simp [String.toList_append]
      rw [he]
      exact behind _
  · exact behind dir

theorem exists_parts_absolute (hn : IsName nm) (ends : EndsIn p nm) (here : String) :
    ∃ kept, parts (absolute here p) = kept ++ [nm] := by
  rw [absolute, parts_normalize]
  apply exists_parts_of_endsIn hn
  split_ifs
  · exact ends
  · exact ends.join here

theorem EndsIn.exists_front (ends : EndsIn p nm) : ∃ pre, p.toList = pre ++ nm.toList := by
  rcases ends with rfl | ⟨dir, rfl⟩
  · exact ⟨[], rfl⟩
  · exact ⟨(dir ++ "/").toList, String.toList_append⟩

theorem EndsIn.append (ends : EndsIn p nm) (extension : String) :
    EndsIn (p ++ extension) (nm ++ extension) := by
  rcases ends with rfl | ⟨dir, rfl⟩
  · exact Or.inl rfl
  · exact Or.inr ⟨dir, String.append_assoc⟩

theorem EndsIn.getLast?_ne (hn : IsName nm) (ends : EndsIn p nm) :
    p.toList.getLast? ≠ some '/' := by
  have hne : nm.toList ≠ [] := by
    rw [ne_eq, String.toList_eq_nil_iff]
    exact hn.nonempty
  obtain ⟨pre, shape⟩ := ends.exists_front
  rw [shape, List.getLast?_append, getLast?_eq_some_getLast hne, Option.some_or]
  intro slashed
  apply hn.unslashed
  rw [← Option.some.inj slashed]
  exact getLast_mem hne

end

/-! ## Stems -/

theorem notMem_name (p : String) : '/' ∉ (name p).toList := by
  rw [name, split, String.toList_ofList, mem_reverse]
  intro hm
  have passed := all_eq_true.mp all_takeWhile _ hm
  simp at passed

theorem notMem_stem (p : String) : '/' ∉ (stem p).toList := by
  intro hm
  apply notMem_name p
  rw [stem, splitExtension] at hm
  split at hm
  · rw [String.toList_ofList] at hm
    exact mem_of_mem_take hm
  · exact hm

end SourceAudit.Path
