import CellAtlas.Proofs.Analysis.Registration
import CellAtlas.Proofs.Analysis.Run

/-!
# Adding a leaf

A leaf is a stage that no other stage waits for. With a leaf among them the stages that can run next
are others at every point of an order, and so is the queue. Yet no other stage comes up sooner or
later: what a stage waits for is the same with the leaf and without it (`remaining_append_leaf`), so
that the order with the leaf, less the leaf, always takes the next stage (`TakesNext.without_leaf`),
and there is only one order that does.

A leaf that fails at once hands on the state that it has met, with an error more in the record. A
stage that looks at this error can do what it likes (`runFrom_leaf_watched`). If none does then the
contexts with the leaf and without it differ nowhere else (`contextAfter_insert`), and every other
stage does what it did before. The main statement is `order_register_leaf`.
-/

namespace CellAtlas

variable {σ : Type}

/-- A stage that can be added as a leaf: its id is new, no stage waits for it, and it waits neither
for itself nor for another stage twice. -/
structure Registry.Leaf (r : Registry σ) (leaf : Stage σ) : Prop where
  fresh : leaf.id ∉ r.ids
  unused : ∀ s ∈ r.stages, leaf.id ∉ s.dependencies
  dependencies_nodup : leaf.dependencies.Nodup
  not_self : leaf.id ∉ leaf.dependencies

/-! ### The order -/

/-- What a stage that does not name the leaf waits for is the same whether the leaf is placed or
not. -/
theorem remaining_append_leaf {leaf s : Stage σ} (h : leaf.id ∉ s.dependencies)
    (registered placed : List String) :
    s.remaining (registered ++ [leaf.id]) placed
      = s.remaining registered (placed.filter (· ≠ leaf.id)) := by
  have hne : ∀ d ∈ s.dependencies, d ≠ leaf.id := by
    rintro d hd rfl
    exact h hd
  -- the leaf adds nothing to what counts as registered, nor to what counts as placed
  have hregistered : s.dependencies.filter ((registered ++ [leaf.id]).contains ·)
      = s.dependencies.filter (registered.contains ·) := by
    apply List.filter_congr
    intro d hd
    simp [hne d hd]
  have hplaced : (placed.filter (· ≠ leaf.id)).filter (s.dependencies.contains ·)
      = placed.filter (s.dependencies.contains ·) := by
    rw [List.filter_filter]
    apply List.filter_congr
    intro d _
    by_cases hd : d ∈ s.dependencies
    · simp [hd, hne d hd]
    · simp [hd]
  rw [Stage.remaining, Stage.remaining, hregistered, hplaced]

section Order

variable {stages : List (Stage σ)} {leaf : Stage σ} (hfresh : leaf.id ∉ stages.map (·.id))
  (hunused : ∀ s ∈ stages, leaf.id ∉ s.dependencies)

include hfresh hunused

/-- Of a stage other than the leaf it can be told without the leaf whether it waits for
something. -/
theorem waits_append_leaf (placed : List String) {s : Stage σ} (hs : s ∈ stages) :
    s.id ∉ placed ∧ s.remaining ((stages ++ [leaf]).map (·.id)) placed = 0 ↔
      s.id ∉ placed.filter (· ≠ leaf.id) ∧
        s.remaining (stages.map (·.id)) (placed.filter (· ≠ leaf.id)) = 0 := by
  have hne : s.id ≠ leaf.id := by
    intro hid
    apply hfresh
    rw [← hid]
    exact List.mem_map_of_mem hs
  rw [List.map_append, List.map_singleton, remaining_append_leaf (hunused s hs)]
  simp [hne]

/-- The next of all stages, when it is not the leaf, is the next one without the leaf. -/
theorem IsNext.without_leaf {placed : List String} {s : Stage σ}
    (h : IsNext (stages ++ [leaf]) placed s) (hs : s.id ≠ leaf.id) :
    IsNext stages (placed.filter (· ≠ leaf.id)) s := by
  have hmem : s ∈ stages := by
    rcases List.mem_append.mp h.mem with hmem | hmem
    · exact hmem
    · exact absurd (congrArg Stage.id (List.mem_singleton.mp hmem)) hs
  obtain ⟨hplaced, hzero⟩ :=
    (waits_append_leaf hfresh hunused placed hmem).mp ⟨h.not_placed, h.remaining⟩
  refine ⟨hmem, hplaced, hzero, ?_⟩
  intro t ht htplaced htzero
  obtain ⟨htplaced, htzero⟩ := (waits_append_leaf hfresh hunused placed ht).mpr ⟨htplaced, htzero⟩
  exact h.least t (List.mem_append_left _ ht) htplaced htzero

/-- A list that always takes the next stage does so without the leaf. -/
theorem TakesNext.without_leaf {placed : List String} {l : List (Stage σ)}
    (h : TakesNext (stages ++ [leaf]) placed l) :
    TakesNext stages (placed.filter (· ≠ leaf.id)) (l.filter (·.id ≠ leaf.id)) := by
  induction l generalizing placed with
  | nil =>
      intro s hs hplaced hzero
      obtain ⟨hplaced, hzero⟩ :=
        (waits_append_leaf hfresh hunused placed hs).mpr ⟨hplaced, hzero⟩
      exact h s (List.mem_append_left _ hs) hplaced hzero
  | cons s l ih =>
      obtain ⟨hs, hrest⟩ := h
      have ih := ih hrest
      rw [List.filter_append] at ih
      -- the leaf itself drops out, and any other stage stays the next one
      by_cases hid : s.id = leaf.id
      · simpa [hid] using ih
      · simp only [ne_eq, hid, not_false_eq_true, decide_true, List.filter_cons_of_pos,
          List.filter_nil] at ih ⊢
        exact ⟨hs.without_leaf hfresh hunused hid, ih⟩

end Order

namespace Registry

variable {r r' : Registry σ} {leaf : Stage σ} {ordered : List (Stage σ)}

/-- An order is given only if no stage is left over. -/
theorem missing_of_order_eq_ok (h : r.order = .ok ordered) : r.missing = [] := by
  by_contra hmissing
  rw [r.order_eq_error hmissing] at h
  cases h

/-- A new id is always accepted, and the stage comes last. -/
theorem register_of_notMem (h : leaf.id ∉ r.ids) :
    ∃ r', r.register leaf = .ok r' ∧ r'.stages = r.stages ++ [leaf] := by
  rw [register, dif_neg h]
  exact ⟨_, rfl, rfl⟩

/-- A leaf joins the stages that get placed, and leaves their order as it is. -/
theorem Leaf.placed_filter (h : r.Leaf leaf) (hstages : r'.stages = r.stages ++ [leaf]) :
    r'.placed.filter (·.id ≠ leaf.id) = r.placed := by
  have htakes := r'.placed_takesNext
  rw [hstages] at htakes
  exact (htakes.without_leaf h.fresh h.unused).unique r.ids_nodup r.placed_takesNext

/-- Where all stages get placed, all of them do with a leaf. -/
theorem Leaf.missing_eq_nil (h : r.Leaf leaf) (hstages : r'.stages = r.stages ++ [leaf])
    (hmissing : r.missing = []) : r'.missing = [] := by
  have hids : r'.ids = r.ids ++ [leaf.id] := by
    rw [ids, hstages, List.map_append]
    rfl
  -- taking the leaf out of the new order gives the old one, in which they all are
  have hothers : r.ids ⊆ r'.placed.map (·.id) := by
    intro id hid
    have hmem := ((r.placed_perm hmissing).map (·.id)).mem_iff.mpr hid
    rw [← h.placed_filter hstages] at hmem
    exact (List.filter_sublist.map _).subset hmem
  have hleaf : leaf.id ∈ r'.placed.map (·.id) := by
    by_contra hplaced
    have hmem : leaf ∈ r'.stages := by
      rw [hstages]
      exact List.mem_append_right _ List.mem_cons_self
    -- all that the leaf waits for has been placed, so that it cannot have been left over
    apply r'.placed_takesNext.remaining_ne_zero hmem hplaced
    apply (remaining_eq_zero_iff h.dependencies_nodup r'.placed_nodup r'.placed_ids_subset).mpr
    intro d hd hregistered
    change d ∈ r'.ids at hregistered
    rw [hids, List.mem_append, List.mem_singleton] at hregistered
    rcases hregistered with hregistered | rfl
    · exact hothers hregistered
    · exact absurd hd h.not_self
  rw [List.eq_nil_iff_forall_not_mem]
  intro id hid
  obtain ⟨hid, hplaced⟩ := r'.mem_missing.mp hid
  rw [hids, List.mem_append, List.mem_singleton] at hid
  rcases hid with hid | rfl
  · exact hplaced (hothers hid)
  · exact hplaced hleaf

/-- With a leaf among them the stages run in the same order, the leaf somewhere in between. -/
theorem Leaf.order_eq_ok (h : r.Leaf leaf) (hstages : r'.stages = r.stages ++ [leaf])
    (horder : r.order = .ok ordered) :
    ∃ before after, r'.order = .ok (before ++ leaf :: after) ∧ ordered = before ++ after ∧
      (before ++ leaf :: after).filter (·.id ≠ leaf.id) = before ++ after := by
  have hmissing := h.missing_eq_nil hstages (missing_of_order_eq_ok horder)
  have hmem : leaf ∈ r'.placed := by
    apply (r'.placed_perm hmissing).mem_iff.mpr
    rw [hstages]
    exact List.mem_append_right _ List.mem_cons_self
  obtain ⟨before, after, hsplit⟩ := List.append_of_mem hmem
  have hfilter : (before ++ leaf :: after).filter (·.id ≠ leaf.id) = before ++ after := by
    have hnodup := r'.placed_nodup
    rw [hsplit, List.map_append, List.map_cons, List.nodup_middle, ← List.map_append,
      List.nodup_cons] at hnodup
    -- ids are unique, so that only the leaf itself is filtered out
    have hkept : ∀ s ∈ before ++ after, s.id ≠ leaf.id := by
      intro s hs hid
      apply hnodup.1
      rw [← hid]
      exact List.mem_map_of_mem hs
    rw [List.filter_append, List.filter_cons_of_neg (by simp), ← List.filter_append]
    exact List.filter_eq_self.mpr fun s hs => decide_eq_true (hkept s hs)
  refine ⟨before, after, ?_, ?_, hfilter⟩
  · rw [r'.order_eq_ok hmissing, hsplit]
  · rw [eq_placed_of_order_eq_ok horder, ← h.placed_filter hstages, hsplit, hfilter]

end Registry

/-! ### Runs -/

section Runs

variable {id text : String} {c c' : Context σ} {s leaf : Stage σ}
  {stages before after : List (Stage σ)}

/-- Two contexts that differ at most in the error of one stage. -/
structure Context.AgreeBut (id : String) (c c' : Context σ) : Prop where
  state : c'.state = c.state
  completed : c'.completed = c.completed
  errors : c'.errors.filter (·.1 ≠ id) = c.errors.filter (·.1 ≠ id)

/-- A stage does the same whatever is recorded as the error of stage `id`. -/
def Stage.Overlooks (s : Stage σ) (id : String) : Prop :=
  ∀ c c' : Context σ, c.AgreeBut id c' → s.action c' = s.action c

/-- Work that fails at once: it has a text to fail with and leaves the state as it is. -/
def Action.FailsAtOnce (f : Action σ) : Prop :=
  ∀ c : Context σ, ∃ text, f c = { state := c.state, failure := some text }

/-- A stage that reads the state alone overlooks every error. -/
theorem Stage.IgnoresRecord.overlooks (h : s.IgnoresRecord) (id : String) : s.Overlooks id := by
  intro c c' hagree
  rw [h c', h c, hagree.state]

/-- A stage that overlooks the error makes contexts of contexts that differ nowhere else. -/
theorem Stage.call_agreeBut (h : s.Overlooks id) (hagree : c.AgreeBut id c') :
    (s.call c).AgreeBut id (s.call c') := by
  simp only [Stage.call, h c c' hagree]
  cases (s.action c).failure with
  | none =>
      refine ⟨rfl, ?_, hagree.errors⟩
      simp only [Context.complete, hagree.completed]
  | some text =>
      refine ⟨rfl, hagree.completed, ?_⟩
      simp only [Context.fail, filter_setKey (fun k => decide (k ≠ id)), hagree.errors]

/-- Stages that overlook an error keep two contexts alike, one stage after the other. -/
theorem contextAfter_agreeBut (h : ∀ s ∈ stages, s.Overlooks id) (hagree : c.AgreeBut id c') :
    (contextAfter stages c).AgreeBut id (contextAfter stages c') := by
  induction stages generalizing c c' with
  | nil => exact hagree
  | cons s rest ih =>
      obtain ⟨hs, hrest⟩ := List.forall_mem_cons.mp h
      exact ih hrest (Stage.call_agreeBut hs hagree)

/-- A stage writes no error but its own. -/
theorem Stage.errors_call_of_ne (hid : s.id ≠ id) (c : Context σ) :
    (s.call c).errors.filter (·.1 = id) = c.errors.filter (·.1 = id) := by
  rw [Stage.call]
  cases (s.action c).failure with
  | none => rfl
  | some text => simp [Context.fail, filter_setKey (fun k => decide (k = id)), hid]

/-- Other stages neither set nor clear the error of stage `id`. -/
theorem errors_contextAfter_of_ne (hids : ∀ s ∈ stages, s.id ≠ id) (c : Context σ) :
    (contextAfter stages c).errors.filter (·.1 = id) = c.errors.filter (·.1 = id) := by
  induction stages generalizing c with
  | nil => rfl
  | cons s rest ih =>
      obtain ⟨hs, hrest⟩ := List.forall_mem_cons.mp hids
      rw [contextAfter_cons, ih hrest, Stage.errors_call_of_ne hs]

/-- Called among stages that overlook it, a leaf that fails at once adds its error to the context,
and nothing else. -/
theorem contextAfter_insert (hfails : leaf.action.FailsAtOnce)
    (hids : ∀ s ∈ before ++ after, s.id ≠ leaf.id)
    (hoverlooks : ∀ s ∈ before ++ after, s.Overlooks leaf.id) (c : Context σ) :
    (contextAfter (before ++ after) c).AgreeBut leaf.id
        (contextAfter (before ++ leaf :: after) c) ∧
      ∃ text, (leaf.action (contextAfter before c)).failure = some text ∧
        (contextAfter (before ++ leaf :: after) c).errors.filter (·.1 = leaf.id)
          = setKey leaf.id text (c.errors.filter (·.1 = leaf.id)) := by
  rw [List.forall_mem_append] at hids hoverlooks
  obtain ⟨text, htext⟩ := hfails (contextAfter before c)
  have hleaf : leaf.call (contextAfter before c) = (contextAfter before c).fail leaf.id text := by
    rw [Stage.call, htext]
  -- when the leaf fails, the only trace it leaves is its error
  have hagree : (contextAfter before c).AgreeBut leaf.id (leaf.call (contextAfter before c)) := by
    rw [hleaf]
    exact ⟨rfl, rfl, (filter_setKey (fun k => decide (k ≠ leaf.id)) ..).trans (if_neg (by simp))⟩
  -- from there on no stage behind it tells the two contexts apart
  refine ⟨?_, text, by rw [htext], ?_⟩
  · rw [contextAfter_append, contextAfter_append, contextAfter_cons]
    exact contextAfter_agreeBut hoverlooks.2 hagree
  · rw [contextAfter_append, contextAfter_cons, errors_contextAfter_of_ne hids.2, hleaf,
      ← errors_contextAfter_of_ne hids.1 c]
    simp [Context.fail, filter_setKey (fun k => decide (k = leaf.id))]

/-- Where only one of two contexts has an error of a stage, its errors are those of the other one
with this error among them. -/
theorem Context.AgreeBut.errors_split (hagree : c.AgreeBut id c')
    (hnone : c.errors.filter (·.1 = id) = [])
    (hsome : c'.errors.filter (·.1 = id) = [(id, text)]) :
    ∃ front back, c.errors = front ++ back ∧ c'.errors = front ++ (id, text) :: back := by
  -- where nothing has the id, leaving it out changes nothing
  have hothers {l : List (String × String)} (h : ∀ entry ∈ l, ¬ decide (entry.1 = id)) :
      l.filter (·.1 ≠ id) = l := by
    rw [List.filter_eq_self]
    intro entry hentry
    simpa using h entry hentry
  obtain ⟨front, back, herrors, hfront, -, hback⟩ := List.filter_eq_cons_iff.mp hsome
  refine ⟨front, back, ?_, herrors⟩
  calc c.errors = c.errors.filter (·.1 ≠ id) := (hothers (List.filter_eq_nil_iff.mp hnone)).symm
    _ = c'.errors.filter (·.1 ≠ id) := hagree.errors.symm
    _ = front.filter (·.1 ≠ id) ++ back.filter (·.1 ≠ id) := by
        rw [herrors, List.filter_append, List.filter_cons_of_neg (by simp)]
    _ = front ++ back := by rw [hothers hfront, hothers (List.filter_eq_nil_iff.mp hback)]

end Runs

/-- A leaf does not disturb the other stages. Where they have an order, they keep it when the leaf
is registered, and the leaf comes in somewhere. If the leaf fails at once and no other stage looks
at its error, a run from the same progress ends in the same state with the same stages completed,
and with the same errors besides that of the leaf, which is one more unless there was one before. -/
theorem order_register_leaf (r : Registry σ) {ordered : List (Stage σ)}
    (horder : r.order = .ok ordered) {leaf : Stage σ} (hleaf : r.Leaf leaf) :
    ∃ r' ordered', r.register leaf = .ok r' ∧ r'.order = .ok ordered' ∧ leaf ∈ ordered' ∧
      ordered'.filter (·.id ≠ leaf.id) = ordered ∧
      (leaf.action.FailsAtOnce → (∀ s ∈ r.stages, s.Overlooks leaf.id) →
        ∀ p : Progress σ, ∃ final final' met text,
          r.runFrom p = { progress := final, answer := .ok () } ∧
          r'.runFrom p = { progress := final', answer := .ok () } ∧
          final'.state = final.state ∧ final'.completed = final.completed ∧
          (leaf.action met).failure = some text ∧ final'.errors.lookup leaf.id = some text ∧
          final'.errors.filter (·.1 ≠ leaf.id) = final.errors.filter (·.1 ≠ leaf.id) ∧
          (leaf.id ∉ p.errors.map (·.1) → ∃ front back, final.errors = front ++ back ∧
            final'.errors = front ++ (leaf.id, text) :: back)) := by
  obtain ⟨r', hregister, hstages⟩ := Registry.register_of_notMem hleaf.fresh
  obtain ⟨before, after, horder', hsplit, hfilter⟩ := hleaf.order_eq_ok hstages horder
  refine ⟨r', before ++ leaf :: after, hregister, horder', by simp, hsplit ▸ hfilter, ?_⟩
  intro hfails hoverlooks p
  have hmem : ∀ s ∈ before ++ after, s ∈ r.stages := by
    intro s hs
    rw [← hsplit] at hs
    exact (r.perm_of_order_eq_ok horder).subset hs
  -- no other stage has the id of the leaf, since that one was accepted as new
  have hids : ∀ s ∈ before ++ after, s.id ≠ leaf.id := by
    intro s hs hid
    exact hleaf.fresh (hid ▸ List.mem_map_of_mem (hmem s hs))
  obtain ⟨hagree, text, htext, herror⟩ := contextAfter_insert hfails hids
    (fun s hs => hoverlooks s (hmem s hs)) p.toContext
  have hnone := errors_contextAfter_of_ne hids p.toContext
  refine ⟨runStages (before ++ after) p, runStages (before ++ leaf :: after) p,
    contextAfter before p.toContext, text, ?_, ?_, ?_⟩
  · rw [Registry.runFrom, horder, hsplit]
  · rw [Registry.runFrom, horder']
  · rw [runStages_eq, runStages_eq]
    refine ⟨hagree.state, hagree.completed, htext, ?_, hagree.errors, ?_⟩
    · rw [← lookup_filter_key, herror, lookup_setKey_self]
    · intro hfresh
      have hbefore : p.errors.filter (·.1 = leaf.id) = [] := by
        rw [List.filter_eq_nil_iff]
        intro entry hentry hkey
        exact hfresh (of_decide_eq_true hkey ▸ List.mem_map_of_mem hentry)
      rw [hbefore] at hnone herror
      exact hagree.errors_split hnone herror

/-- Two stages that count what they have seen. -/
def counting : Registry Nat where
  stages := [
    { id := "show", dependencies := ["load"], action := .onState fun n => { state := n + 1 } },
    { id := "load", action := .onState fun n => { state := 2 * n } }]
  ids_nodup := by decide

theorem order_counting : counting.order = .ok counting.stages.reverse := by
  apply counting.order_eq_ok_of_takesNext
  · exact ⟨⟨by simp [counting], by decide, by decide, by decide⟩,
      ⟨by simp [counting], by decide, by decide, by decide⟩,
      show ∀ s ∈ counting.stages, _ from by decide⟩
  · rfl

/-- A leaf that comes in between the two stages. -/
def mark : Stage Nat where
  id := "mark"
  dependencies := ["load", "absent"]
  action := .fail "no ink"

theorem failsAtOnce_mark : mark.action.FailsAtOnce := fun _ => ⟨"no ink", rfl⟩

theorem order_register_leaf_mark :
    counting.order = .ok counting.stages.reverse ∧ counting.Leaf mark ∧
      mark.action.FailsAtOnce ∧ (∀ s ∈ counting.stages, s.Overlooks "mark") ∧
      "mark" ∉ ([] : List (String × String)).map (·.1) ∧
      ∃ r' ordered', counting.register mark = .ok r' ∧ r'.order = .ok ordered' ∧
        ordered'.filter (·.id ≠ "mark") = counting.stages.reverse ∧
        ∃ final final' front back text,
          counting.runFrom { state := 3 } = { progress := final, answer := .ok () } ∧
          r'.runFrom { state := 3 } = { progress := final', answer := .ok () } ∧
          final'.state = final.state ∧ final'.completed = final.completed ∧
          final.errors = front ++ back ∧ final'.errors = front ++ ("mark", text) :: back := by
  have hleaf : counting.Leaf mark := ⟨by decide, by decide, by decide, by decide⟩
  have hoverlooks : ∀ s ∈ counting.stages, s.Overlooks "mark" := by
    intro s hs
    apply Stage.IgnoresRecord.overlooks
    rcases List.mem_pair.mp hs with rfl | rfl <;> exact fun c => rfl
  have hfresh : "mark" ∉ ([] : List (String × String)).map (·.1) := List.not_mem_nil
  obtain ⟨r', ordered', hregister, horder', -, hfilter, hruns⟩ :=
    order_register_leaf counting order_counting hleaf
  obtain ⟨final, final', -, text, hrun, hrun', hstate, hcompleted, -, -, -, herrors⟩ :=
    hruns failsAtOnce_mark hoverlooks { state := 3 }
  obtain ⟨front, back, hfront, hback⟩ := herrors hfresh
  exact ⟨order_counting, hleaf, failsAtOnce_mark, hoverlooks, hfresh, r', ordered', hregister,
    horder', hfilter, final, final', front, back, text, hrun, hrun', hstate, hcompleted, hfront,
    hback⟩

/-- A stage that counts the errors so far. -/
def watch : Stage Nat where
  id := "watch"
  action c := { state := c.state + c.errors.length }

def watching : Registry Nat where
  stages := [watch]
  ids_nodup := by decide

/-- A stage that looks at the errors sees whether a leaf has failed before it: without the leaf it
leaves one state and with the leaf another one. -/
theorem runFrom_leaf_watched :
    watching.order = .ok [watch] ∧ watching.Leaf mark ∧ mark.action.FailsAtOnce ∧
      ∃ r' final final', watching.register mark = .ok r' ∧
        watching.runFrom { state := 0 } = { progress := final, answer := .ok () } ∧
        r'.runFrom { state := 0 } = { progress := final', answer := .ok () } ∧
        final.state = 0 ∧ final'.state = 1 := by
  have halone : TakesNext [watch] [] [watch] :=
    ⟨⟨by simp, by decide, by decide, by decide⟩, show ∀ s ∈ [watch], _ from by decide⟩
  have hmarked : TakesNext [watch, mark] [] [mark, watch] :=
    ⟨⟨by simp, by decide, by decide, by decide⟩, ⟨by simp, by decide, by decide, by decide⟩,
      show ∀ s ∈ [watch, mark], _ from by decide⟩
  have hleaf : watching.Leaf mark := ⟨by decide, by decide, by decide, by decide⟩
  obtain ⟨r', hregister, hstages⟩ := Registry.register_of_notMem hleaf.fresh
  have horder : watching.order = .ok [watch] := watching.order_eq_ok_of_takesNext halone rfl
  have horder' : r'.order = .ok [mark, watch] := by
    apply r'.order_eq_ok_of_takesNext
    · rw [hstages]
      exact hmarked
    · rw [Registry.count, hstages]
      rfl
  refine ⟨horder, hleaf, failsAtOnce_mark, r', runStages [watch] { state := 0 },
    runStages [mark, watch] { state := 0 }, hregister, ?_, ?_, rfl, rfl⟩
  · rw [Registry.runFrom, horder]
  · rw [Registry.runFrom, horder']

end CellAtlas
