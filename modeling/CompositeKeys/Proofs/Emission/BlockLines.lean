import CompositeKeys.Emission.Documentation
import Mathlib.Data.List.DropRight

/-! The lines of a block of documentation. Behind the first one each has a blank and a star at its
margin, so what is dropped at the end, lines whose margin is a star alone, is never there. -/

namespace CompositeKeys.Emission
open Text

namespace ParameterRow

/-- Every line of a table is the first one of a row, with its cells, or a further one. -/
theorem of_mem_table {rows : List ParameterRow} {line : String} (member : line ∈ table rows) :
    ∃ row ∈ rows, ∃ text, (text = "" ∨ text ∈ lines row.description) ∧
      ((∃ typeWidth nameWidth, line = " * @param " ++ padded typeWidth row.braced ++ " " ++
        padded nameWidth row.name ++ " " ++ text) ∨
      ∃ width, line = " * " ++ padded width "" ++ text) := by
  obtain ⟨row, among, member⟩ := List.mem_flatMap.mp member
  refine ⟨row, among, ?_⟩
  dsimp only at member
  split at member
  · exact ⟨"", .inl rfl, .inl ⟨_, _, List.mem_singleton.mp member⟩⟩
  next first rest read =>
    rw [read]
    rcases List.mem_cons.mp member with rfl | later
    · exact ⟨first, .inr List.mem_cons_self, .inl ⟨_, _, rfl⟩⟩
    · obtain ⟨text, further, rfl⟩ := List.mem_map.mp later
      exact ⟨text, .inr (List.mem_cons_of_mem _ further), .inr ⟨_, rfl⟩⟩

theorem table_margined (rows : List ParameterRow) :
    ∀ line ∈ table rows, " *".toList <+: line.toList := by
  intro line member
  obtain ⟨_, _, _, -, ⟨_, _, rfl⟩ | ⟨_, rfl⟩⟩ := of_mem_table member
  · simp
  · simp

end ParameterRow

namespace Documentation

theorem underBlank_margined {lines : List String}
    (margined : ∀ line ∈ lines, " *".toList <+: line.toList) :
    ∀ line ∈ underBlank lines, " *".toList <+: line.toList := by
  unfold underBlank
  split
  · exact List.forall_mem_nil _
  · exact List.forall_mem_cons.mpr ⟨List.prefix_rfl, margined⟩

theorem resultLine_margined (entry : Entry) :
    ∀ line ∈ resultLine entry, " *".toList <+: line.toList := by
  unfold resultLine
  split
  · cases entry.isGenerator <;> simp
  · exact List.forall_mem_nil _

/-- Behind its first line, a block has lines at the margin only. -/
theorem exists_lead (documentation : Documentation) (entry : Entry) :
    ∃ body, documentation.leadLines entry = ["/**"] ++ body ∧
      ∀ line ∈ body, " *".toList <+: line.toList := by
  have marginal : ∀ texts : List String, ∀ line ∈ texts.map (" * " ++ ·),
      " *".toList <+: line.toList := by
    intro texts line member
    obtain ⟨_, _, rfl⟩ := List.mem_map.mp member
    simp
  refine ⟨(lines entry.description).map (" * " ++ ·) ++
    underBlank (entry.headers.map (" * " ++ ·)) ++
    underBlank (ParameterRow.table (documentation.rows entry)) ++
    underBlank (resultLine entry) ++
    underBlank (entry.footers.map (" * " ++ ·)), by simp [leadLines], ?_⟩
  simp only [List.forall_mem_append]
  exact ⟨⟨⟨⟨marginal _, underBlank_margined (marginal _)⟩,
    underBlank_margined (ParameterRow.table_margined _)⟩,
    underBlank_margined (resultLine_margined entry)⟩, underBlank_margined (marginal _)⟩

/-- No line is dropped at the end of a block. -/
theorem blockLines_eq (documentation : Documentation) (entry : Entry) :
    documentation.blockLines entry = documentation.leadLines entry ++ [" */"] := by
  obtain ⟨body, lead, margined⟩ := documentation.exists_lead entry
  have starless : ∀ line ∈ documentation.leadLines entry, ¬ "*".toList <+: line.toList := by
    rw [lead]
    refine List.forall_mem_append.mpr ⟨by decide, fun line member star => ?_⟩
    obtain ⟨rest, same⟩ := star
    obtain ⟨_, blank⟩ := margined line member
    rw [← same] at blank
    simp at blank
  have kept : withoutStars (documentation.leadLines entry) = documentation.leadLines entry := by
    apply List.rdropWhile_eq_self_iff.mpr
    intro filled bare
    have star : trimEnd ((documentation.leadLines entry).getLast filled) = "*" := by
      simpa using bare
    apply starless _ (List.getLast_mem filled)
    rw [← star, trimEnd, String.toList_ofList]
    exact List.rdropWhile_prefix _ _
  rw [blockLines, kept]

/-- Between its first and its last line, a block has lines at the margin only. -/
theorem exists_body (documentation : Documentation) (entry : Entry) :
    ∃ body, documentation.blockLines entry = ["/**"] ++ body ++ [" */"] ∧
      ∀ line ∈ body, " *".toList <+: line.toList := by
  obtain ⟨body, lead, margined⟩ := documentation.exists_lead entry
  exact ⟨body, by rw [blockLines_eq, lead], margined⟩

end Documentation

end CompositeKeys.Emission
