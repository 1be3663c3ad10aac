import CellAtlas.Proofs.Classification.Sizing

/-!
# What the sizes of structures depend on

All the numbers come from one generator that is handed on from structure to structure, so the draws
for one structure decide what is left for the next one. How much is drawn depends on the ranges, and
these on the category, but not on the structure itself (`size_eq_map`):

    categories     c₀      c₁      c₂
    generators  g ────→ g₁ ────→ g₂ ────→ …

Hence two lists of structures have the same numbers for as long as they have the same categories
(`sizeEach_agree`), whatever their names, members and lines are and whatever comes later.
-/

namespace CellAtlas

open Source CellAtlas.Random

namespace Classified

def numbers (c : Classified) : Int × Int := (c.instanceCount, c.nestingDepth)

section Runs

variable {table : SizingTable} {category : Category} {s t : Structure} {g : Generator}
  {all all' structures structures' : List Structure} {c d : Classified × Generator}
  {cs ds : List Classified}

/-- Another structure of the same category has the same size, and leaves the same generator. -/
theorem size_eq_map (s t : Structure) (category : Category) (table : SizingTable) (g : Generator) :
    size t category table g =
      (size s category table g).map fun d => ({ d.1 with toStructure := t }, d.2) := by
  unfold size
  cases table.lookup category with
  | none => rfl
  | some sizing =>
      dsimp only
      -- both draws are those of the category, and neither looks at the structure
      cases sizing.instanceCount.draw g with
      | error e => rfl
      | ok count =>
          simp only [bind, Except.bind]
          cases sizing.nestingDepth.draw count.2 with
          | error e => rfl
          | ok depth => rfl

theorem size_agree (hc : size s category table g = .ok c) (hd : size t category table g = .ok d) :
    c.1.numbers = d.1.numbers ∧ c.2 = d.2 := by
  rw [size_eq_map s, hc] at hd
  cases hd
  exact ⟨rfl, rfl⟩

/-- Sizing leaves a structure and its category as they are. -/
theorem size_keeps (h : size s category table g = .ok c) :
    c.1.toStructure = s ∧ c.1.category = category := by
  unfold size at h
  split at h
  · cases h
  · simp only [bind_eq_ok] at h
    obtain ⟨count, -, depth, -, h⟩ := h
    cases h
    exact ⟨rfl, rfl⟩

/-- The structures are sized one after the other, each with the generator the last one has left. -/
theorem sizeEach_cons_eq_ok :
    sizeEach table all (s :: structures) g = .ok cs ↔
      ∃ c more, size s (s.category all) table g = .ok c ∧
        sizeEach table all structures c.2 = .ok more ∧ c.1 :: more = cs := by
  simp only [sizeEach, bind_eq_ok, pure, Except.pure, Except.ok.injEq]
  constructor
  · rintro ⟨c, hc, more, hmore, rfl⟩
    exact ⟨c, more, hc, hmore, rfl⟩
  · rintro ⟨c, more, hc, hmore, rfl⟩
    exact ⟨c, hc, more, hmore, rfl⟩

/-- Whatever is classified keeps its structures and has their categories. -/
theorem sizeEach_keeps (h : sizeEach table all structures g = .ok cs) :
    cs.map (·.toStructure) = structures ∧
      cs.map (·.category) = structures.map (·.category all) := by
  induction structures generalizing g cs with
  | nil =>
      cases h
      exact ⟨rfl, rfl⟩
  | cons s rest ih =>
      obtain ⟨c, more, hc, hmore, rfl⟩ := sizeEach_cons_eq_ok.mp h
      obtain ⟨hstructures, hcategories⟩ := ih hmore
      obtain ⟨hstructure, hcategory⟩ := size_keeps hc
      constructor
      · rw [List.map_cons, hstructure, hstructures]
      · rw [List.map_cons, List.map_cons, hcategory, hcategories]

/-- Two runs that start from the same generator stay together as long as the categories agree. -/
theorem sizeEach_agree (k : Nat)
    (h : (structures.map (·.category all)).take k = (structures'.map (·.category all')).take k)
    (hcs : sizeEach table all structures g = .ok cs)
    (hds : sizeEach table all' structures' g = .ok ds) :
    (cs.map numbers).take k = (ds.map numbers).take k := by
  induction k generalizing structures structures' g cs ds with
  | zero => rfl
  | succ k ih =>
      cases structures with
      | nil =>
          cases structures' with
          | nil =>
              cases hcs
              cases hds
              rfl
          | cons t rest' => cases h
      | cons s rest =>
          cases structures' with
          | nil => cases h
          | cons t rest' =>
              obtain ⟨c, more, hc, hmore, rfl⟩ := sizeEach_cons_eq_ok.mp hcs
              obtain ⟨d, more', hd, hmore', rfl⟩ := sizeEach_cons_eq_ok.mp hds
              obtain ⟨hcategory, hrest⟩ := List.cons.inj h
              dsimp only at hcategory
              rw [← hcategory] at hd
              -- one category and one generator give one size, and leave one generator for the rest
              obtain ⟨hnumbers, hgenerator⟩ := size_agree hc hd
              rw [← hgenerator] at hmore'
              simp only [List.map_cons, List.take_succ_cons]
              rw [hnumbers, ih hrest hmore hmore']

end Runs

/-- An entry is its structure, its category and its numbers. -/
theorem eq_of_parts {cs ds : List Classified}
    (hstructures : cs.map (·.toStructure) = ds.map (·.toStructure))
    (hcategories : cs.map (·.category) = ds.map (·.category))
    (hnumbers : cs.map numbers = ds.map numbers) : cs = ds := by
  induction cs generalizing ds with
  | nil => exact (List.map_eq_nil_iff.mp hnumbers.symm).symm
  | cons c cs ih =>
      cases ds with
      | nil => cases hnumbers
      | cons d ds =>
          obtain ⟨hstructure, hstructures⟩ := List.cons.inj hstructures
          obtain ⟨hcategory, hcategories⟩ := List.cons.inj hcategories
          obtain ⟨hnumber, hnumbers⟩ := List.cons.inj hnumbers
          obtain rfl := ih hstructures hcategories hnumbers
          congr 1
          obtain ⟨_, _, _, _⟩ := c
          cases hstructure
          cases hcategory
          cases hnumber
          rfl

end Classified

/-- The ranges that a table stands for. -/
def SizingTable.orDefault (table : SizingTable) : SizingTable :=
  if table.isEmpty then defaultSizings else table

/-- Classifying is one run over all structures. -/
theorem classify_eq_ok {structures : List Structure} {seed : Option Int} {table : SizingTable}
    {cs : List Classified} : classify structures seed table = .ok cs ↔
      ∃ g, Generator.ofSeed seed = .ok g ∧
        Classified.sizeEach table.orDefault structures structures g = .ok cs := by
  unfold classify
  cases Generator.ofSeed seed with
  | error e => exact ⟨nofun, nofun⟩
  | ok g =>
      constructor
      · intro h
        exact ⟨g, rfl, h⟩
      · rintro ⟨_, ⟨⟩, h⟩
        exact h

section Agreement

variable {structures others : List Structure} {seed : Option Int} {table : SizingTable}
  {cs ds : List Classified}

/-- Two classified lists have the same numbers as far as their categories agree. -/
theorem numbers_agree (hcs : classify structures seed table = .ok cs)
    (hds : classify others seed table = .ok ds) {k : Nat}
    (h : (structures.map (·.category structures)).take k
      = (others.map (·.category others)).take k) :
    (cs.map Classified.numbers).take k = (ds.map Classified.numbers).take k := by
  obtain ⟨g, hg, hcs⟩ := classify_eq_ok.mp hcs
  obtain ⟨g', hg', hds⟩ := classify_eq_ok.mp hds
  cases hg.symm.trans hg'
  exact Classified.sizeEach_agree k h hcs hds

/-- Classifying keeps the structures and gives each its category. -/
theorem keeps_of_classify (h : classify structures seed table = .ok cs) :
    cs.map (·.toStructure) = structures ∧
      cs.map (·.category) = structures.map (·.category structures) := by
  obtain ⟨g, -, h⟩ := classify_eq_ok.mp h
  exact Classified.sizeEach_keeps h

/-- Further structures leave the entries before them as they are, if they leave the categories. -/
theorem prefix_of_classify_append (hcs : classify structures seed table = .ok cs)
    (hds : classify (structures ++ others) seed table = .ok ds)
    (h : ∀ s ∈ structures, s.category (structures ++ others) = s.category structures) :
    cs <+: ds := by
  have hcategories : structures.map (·.category (structures ++ others))
      = structures.map (·.category structures) := List.map_congr_left h
  obtain ⟨hcs₁, hcs₂⟩ := keeps_of_classify hcs
  obtain ⟨hds₁, hds₂⟩ := keeps_of_classify hds
  have hlength : cs.length = structures.length := by rw [← hcs₁, List.length_map]
  have hnumbers : (cs.map Classified.numbers).take structures.length
      = (ds.map Classified.numbers).take structures.length := by
    apply numbers_agree hcs hds
    rw [List.map_append, hcategories, List.take_of_length_le (Nat.le_of_eq (List.length_map _)),
      List.take_left' (List.length_map _)]
  -- the first entries agree in structure, category and numbers, and an entry is no more than that
  have heq : cs = ds.take structures.length := by
    apply Classified.eq_of_parts
    · rw [hcs₁, List.map_take, hds₁, List.take_left]
    · rw [hcs₂, List.map_take, hds₂, List.map_append, hcategories,
        List.take_left' (List.length_map _)]
    · rw [List.map_take, ← hnumbers, List.take_of_length_le (by simp [hlength])]
  rw [heq]
  exact List.take_prefix _ _

end Agreement

/-- With one seed and one table of ranges, the numbers of structures depend on the categories so far
and on nothing else. In particular, structures that are added at the end leave all entries before
them as they are, unless they change the category of one. -/
theorem classify_agree {structures : List Structure} {seed : Int} {table : SizingTable}
    {cs : List Classified} (hcs : classify structures (some seed) table = .ok cs) :
    (∀ (others : List Structure) (ds : List Classified) (k : Nat),
      classify others (some seed) table = .ok ds →
      (structures.map (·.category structures)).take k
        = (others.map (·.category others)).take k →
      (cs.map fun c => (c.instanceCount, c.nestingDepth)).take k
        = (ds.map fun d => (d.instanceCount, d.nestingDepth)).take k) ∧
    ∀ (more : List Structure) (ds : List Classified),
      classify (structures ++ more) (some seed) table = .ok ds →
      (∀ s ∈ structures, s.category (structures ++ more) = s.category structures) →
      cs <+: ds := by
  constructor
  · intro others ds k hds h
    exact numbers_agree hcs hds h
  · intro more ds hds h
    exact prefix_of_classify_append hcs hds h

/-- A tree node that is linked as the node of a list is, and a leaf. -/
def rooted : List Structure :=
  [{ name := "Tree", kind := .cls, startLine := 3, endLine := 9,
     members := [⟨"size", "int", false, 4⟩, ⟨"left", "const Tree*", true, 5⟩] },
   { name := "Leaf" }]

/-- The node of a list and that of a tree are of one size, though a nested structure follows the one
and a simple one the other; and a point behind the list changes no entry of it. -/
theorem classify_agree_chained :
    ∃ cs ds es, classify chained (some 7) = .ok cs ∧ classify rooted (some 7) = .ok ds ∧
      classify (chained ++ [{ name := "Point" }]) (some 7) = .ok es ∧
      (chained.map (·.category chained)).take 1 = (rooted.map (·.category rooted)).take 1 ∧
      (cs.map fun c => (c.instanceCount, c.nestingDepth)).take 1
        = (ds.map fun d => (d.instanceCount, d.nestingDepth)).take 1 ∧
      (∀ s ∈ chained, s.category (chained ++ [{ name := "Point" }]) = s.category chained) ∧
      cs <+: es := by
  have hseed : (0 : Int) ≤ 7 := by decide
  obtain ⟨cs, hcs, -⟩ := classify_ok chained hseed
  obtain ⟨ds, hds, -⟩ := classify_ok rooted hseed
  obtain ⟨es, hes, -⟩ := classify_ok (chained ++ [{ name := "Point" }]) hseed
  have hcategories : (chained.map (·.category chained)).take 1
      = (rooted.map (·.category rooted)).take 1 := by decide +kernel
  have hchanged : ∀ s ∈ chained,
      s.category (chained ++ [{ name := "Point" }]) = s.category chained := by decide +kernel
  exact ⟨cs, ds, es, hcs, hds, hes, hcategories, (classify_agree hcs).1 rooted ds 1 hds hcategories,
    hchanged, (classify_agree hcs).2 _ es hes hchanged⟩

end CellAtlas
