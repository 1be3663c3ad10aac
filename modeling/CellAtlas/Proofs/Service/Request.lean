import CellAtlas.Proofs.Wire.Decoder
import CellAtlas.Service.Request

/-!
# What requests ask for

The check of a grid configuration lets through grids of at most 512 by 512 cells with ratios between
zero and one (`gridConfig_accepted`), and so do the checks of the requests that contain one. Counts
of instances have no upper bound (`gridRequest_accepted`).
-/

namespace CellAtlas

/-- The dimensions and ratios of a grid that can be asked for. -/
structure GridConfig.Accepted (c : GridConfig) : Prop where
  width_nonneg : 0 ≤ c.width
  width_le : c.width ≤ 512
  height_nonneg : 0 ≤ c.height
  height_le : c.height ≤ 512
  activeRatio : 0 ≤ c.activeRatio ∧ c.activeRatio ≤ 1
  droppedRatio : 0 ≤ c.droppedRatio ∧ c.droppedRatio ≤ 1
  pointerRatio : 0 ≤ c.pointerRatio ∧ c.pointerRatio ≤ 1

theorem GridConfig.Accepted.width_toNat_le {c : GridConfig} (h : c.Accepted) :
    c.width.toNat ≤ 512 := Int.toNat_le.mpr h.width_le

theorem GridConfig.Accepted.height_toNat_le {c : GridConfig} (h : c.Accepted) :
    c.height.toNat ≤ 512 := Int.toNat_le.mpr h.height_le

theorem GridConfig.accepted_default : ({} : GridConfig).Accepted where
  width_nonneg := by decide
  width_le := by decide
  height_nonneg := by decide
  height_le := by decide
  activeRatio := by decide +kernel
  droppedRatio := by decide +kernel
  pointerRatio := by decide +kernel

/-- A structure that can be laid out on request. -/
structure Share.Accepted (s : Share) : Prop where
  name_ne : s.name ≠ ""
  instanceCount_nonneg : 0 ≤ s.instanceCount
  nestingDepth_pos : 1 ≤ s.nestingDepth

/-- What can be laid out on request. -/
structure GridRequest.Accepted (r : GridRequest) : Prop where
  structures : ∀ s ∈ r.structures, s.Accepted
  config : r.config.Accepted
  seed : ∀ n ∈ r.seed, 0 ≤ n

/-- If a request asks for a grid, it is one that can be asked for. -/
def AnalyzeFileRequest.Accepted (r : AnalyzeFileRequest) : Prop := ∀ c ∈ r.grid, c.Accepted

namespace Wire

/-- A configuration that passes the check can be laid out. -/
theorem gridConfig_accepted {j : Json} {c : GridConfig} (h : gridConfig j = .valid c) :
    c.Accepted := by
  unfold gridConfig model at h
  split at h
  · simp only [Checked.seq_eq_valid, Checked.map_eq_valid] at h
    obtain ⟨_, pointer, ⟨_, dropped, ⟨_, active, ⟨_, height, ⟨width, hwidth, rfl⟩, hheight, rfl⟩,
      hactive, rfl⟩, hdropped, rfl⟩, hpointer, rfl⟩ := h
    -- each field is missing, and its default is accepted, or has passed its own check
    have hdefault := GridConfig.accepted_default
    have hw := of_optional hwidth (p := fun n => 0 ≤ n ∧ n ≤ 512) (by decide)
      fun _ _ => integer_bounds
    have hh := of_optional hheight (p := fun n => 0 ≤ n ∧ n ≤ 512) (by decide)
      fun _ _ => integer_bounds
    exact {
      width_nonneg := hw.1
      width_le := hw.2
      height_nonneg := hh.1
      height_le := hh.2
      activeRatio := of_optional hactive (p := fun x => 0 ≤ x ∧ x ≤ 1) hdefault.activeRatio
        fun _ _ => real_bounds
      droppedRatio := of_optional hdropped (p := fun x => 0 ≤ x ∧ x ≤ 1) hdefault.droppedRatio
        fun _ _ => real_bounds
      pointerRatio := of_optional hpointer (p := fun x => 0 ≤ x ∧ x ≤ 1) hdefault.pointerRatio
        fun _ _ => real_bounds }
  · cases h

/-- What is null has nothing to be checked. -/
theorem of_nullable {α : Type} {p : α → Prop} {d : Decoder α} (hd : ∀ j a, d j = .valid a → p a)
    {j : Json} {found : Option α} (h : nullable d j = .valid found) : ∀ a ∈ found, p a := by
  unfold nullable at h
  split at h
  · cases h
    simp
  · obtain ⟨a, ha, rfl⟩ := Checked.map_eq_valid.mp h
    simpa using hd _ a ha

theorem analyzeFileFields_accepted {o : Json} {r : AnalyzeFileRequest}
    (h : analyzeFileFields o = .valid r) : r.Accepted := by
  simp only [analyzeFileFields, Checked.seq_eq_valid, Checked.map_eq_valid] at h
  obtain ⟨_, _, ⟨_, _, ⟨grid, hgrid, rfl⟩, -, rfl⟩, -, rfl⟩ := h
  apply of_optional hgrid (p := fun grid => ∀ c ∈ grid, c.Accepted) (by simp)
  intro j grid hgrid
  exact of_nullable (fun _ _ => gridConfig_accepted) hgrid

theorem analyzeFileRequest_accepted {j : Json} {r : AnalyzeFileRequest}
    (h : analyzeFileRequest j = .valid r) : r.Accepted := by
  unfold analyzeFileRequest model at h
  split at h
  · exact analyzeFileFields_accepted h
  · cases h

/-- The check of the grid is the same with a source in the request. -/
theorem analyzeRequest_accepted {j : Json} {r : AnalyzeRequest}
    (h : analyzeRequest j = .valid r) : r.toAnalyzeFileRequest.Accepted := by
  unfold analyzeRequest model at h
  split at h
  · simp only [Checked.seq_eq_valid, Checked.map_eq_valid] at h
    obtain ⟨_, fields, ⟨_, -, rfl⟩, hfields, rfl⟩ := h
    exact analyzeFileFields_accepted hfields
  · cases h

/-- A share that passes the check can be laid out. -/
theorem share_accepted {j : Json} {s : Share} (h : share j = .valid s) : s.Accepted := by
  unfold share model at h
  split at h
  · simp only [Checked.seq_eq_valid, Checked.map_eq_valid] at h
    obtain ⟨_, depth, ⟨_, count, ⟨_, category, ⟨name, hname, rfl⟩, -, rfl⟩, hcount, rfl⟩, hdepth,
      rfl⟩ := h
    refine ⟨?_, ?_, ?_⟩
    -- the name has to be there, and its least length is one
    · unfold required at hname
      split at hname
      · have hlength := text_least (Checked.inside_eq_valid.mp hname)
        rintro rfl
        exact absurd hlength (by decide)
      · cases hname
    · exact of_optional hcount (p := fun n => 0 ≤ n) (by decide) fun _ _ => integer_least
    · exact of_optional hdepth (p := fun n => 1 ≤ n) (by decide) fun _ _ => integer_least
  · cases h

/-- A request that passes the check asks for what can be laid out. -/
theorem gridRequest_accepted {j : Json} {r : GridRequest} (h : gridRequest j = .valid r) :
    r.Accepted := by
  unfold gridRequest model at h
  split at h
  · simp only [Checked.seq_eq_valid, Checked.map_eq_valid] at h
    obtain ⟨_, n, ⟨_, config, ⟨shares, hshares, rfl⟩, hconfig, rfl⟩, hseed, rfl⟩ := h
    refine ⟨?_, ?_, ?_⟩
    · exact of_optional hshares (p := fun shares => ∀ s ∈ shares, s.Accepted) (by simp)
        fun _ _ => of_list fun _ _ => share_accepted
    · exact of_optional hconfig GridConfig.accepted_default fun _ _ => gridConfig_accepted
    · exact of_optional hseed (p := fun seed => ∀ n ∈ seed, 0 ≤ n) (by simp)
        fun _ _ => of_nullable fun _ _ => integer_least
  · cases h

end Wire

end CellAtlas
