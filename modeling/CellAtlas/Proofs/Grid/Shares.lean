import CellAtlas.Proofs.Grid.Layout
import CellAtlas.Proofs.Number.Precision

/-!
# Rows in proportion

The rows of a grid are shared out in proportion to instance counts, and a share is rounded up to
whole rows. On the way to a number of rows three results are rounded to double precision:

    share of one instance       width * height / total
    cells of a structure        count * share
    its rows, still to ceil     cells / width

Together they move the exact share `count * height / total` by one part in 2^51 at most
(`rowsFor_near`). That makes no difference to the number of rows unless the exact share is a whole
number or just beside one (`rowsFor_share`): then a structure may get a row more than its share, and
those below it move down.
-/

namespace CellAtlas

open Binary64

/-! ### Rounding up what is almost right -/

section Ceil

variable {q r : ℚ}

/-- A number of at most 512 that is off by a small part of itself is off by one at most once it is
rounded up. -/
theorem abs_ceil_sub_le (hq : |q - r| ≤ r / 2 ^ 51) (hr : r ≤ 512) : |⌈q⌉ - ⌈r⌉| ≤ 1 := by
  obtain ⟨hge, hle⟩ := abs_le.mp hq
  have habove : ⌈q⌉ ≤ ⌈r⌉ + 1 := by
    rw [← Int.ceil_add_one]
    exact Int.ceil_mono (by linarith)
  have hbelow : ⌈r⌉ ≤ ⌈q⌉ + 1 := by
    rw [← Int.ceil_add_one]
    exact Int.ceil_mono (by linarith)
  rw [abs_le]
  omega

/-- A ratio of small numbers that is not whole keeps away from the whole numbers. -/
theorem ceil_eq_ceil {a b : ℕ} (hb : 0 < b) (ha : a < 2 ^ 51)
    (hq : |q - a / b| ≤ (a : ℚ) / b / 2 ^ 51) (hne : ∀ m : ℤ, (a : ℚ) / b ≠ m) :
    ⌈q⌉ = ⌈(a : ℚ) / b⌉ := by
  have hpos : (0 : ℚ) < b := Nat.cast_pos.mpr hb
  obtain ⟨hge, hle⟩ := abs_le.mp hq
  -- the error is smaller than the distance `1 / b` of two neighbouring fractions
  have hsmall : (a : ℚ) / b / 2 ^ 51 < 1 / b := by
    rw [div_right_comm]
    gcongr
    rw [div_lt_one (by positivity)]
    exact_mod_cast ha
  obtain ⟨hbelow, habove⟩ := Int.ceil_eq_iff.mp (rfl : ⌈(a : ℚ) / b⌉ = _)
  generalize ⌈(a : ℚ) / b⌉ = z at hbelow habove ⊢
  -- between the whole numbers `z - 1` and `z` the numerators are at least one apart
  have hbelow' : (z - 1) * b + 1 ≤ (a : ℤ) := by
    rw [lt_div_iff₀ hpos] at hbelow
    exact_mod_cast hbelow
  have habove' : (a : ℤ) + 1 ≤ z * b := by
    have hlt := lt_of_le_of_ne habove (hne z)
    rw [div_lt_iff₀ hpos] at hlt
    exact_mod_cast hlt
  -- so even with the error the ratio stays between `z - 1` and `z`
  have hlow : (z : ℚ) - 1 ≤ a / b - 1 / b := by
    rw [← sub_div, le_div_iff₀ hpos]
    have hcast : (((z - 1) * b + 1 : ℤ) : ℚ) ≤ ((a : ℤ) : ℚ) := Int.cast_le.mpr hbelow'
    push_cast at hcast
    linarith
  have hhigh : (a : ℚ) / b + 1 / b ≤ z := by
    rw [← add_div, div_le_iff₀ hpos]
    exact_mod_cast habove'
  rw [Int.ceil_eq_iff]
  constructor <;> linarith

/-- Near a whole number one comes to this number, or to the next one from above it. -/
theorem ceil_eq_or {m : ℤ} (hq : |q - m| ≤ m / 2 ^ 51) (hm : (m : ℚ) ≤ 512) :
    ⌈q⌉ = m ∨ ⌈q⌉ = m + 1 ∧ m < q := by
  obtain ⟨hge, hle⟩ := abs_le.mp hq
  rcases le_or_gt q m with h | h
  · left
    rw [Int.ceil_eq_iff]
    constructor <;> linarith
  · right
    refine ⟨?_, h⟩
    rw [Int.ceil_eq_iff]
    push_cast
    constructor <;> linarith

end Ceil

/-! ### Three roundings -/

section Rounding

variable {count width height total : ℕ} {share : Binary64}

/-- Neither the product nor the quotient goes beyond a whole number of rows. -/
theorem rows_le_of_whole {n w : Binary64} {j k m : ℕ} {r s : ℚ} (hn : n.Near 0 count)
    (hw : w.Near 0 width) (hshare : share.Near j r) (hproduct : (n * share).Near k s)
    (hwidth : 0 < width ∧ width ≤ 512) (hm : m ≤ 512) (hle : count * share.toRat ≤ m * width) :
    (n * share / w).toRat ≤ m := by
  have hwpos : (0 : ℚ) < width := Nat.cast_pos.mpr hwidth.1
  have hwhole : m * width ≤ 512 * 512 := Nat.mul_le_mul hm hwidth.2
  have hcells : (n * share).toRat ≤ (m * width : ℕ) := by
    apply hn.mul_toRat_le hshare (by omega)
    rw [hn.toRat_eq]
    exact_mod_cast hle
  apply hproduct.div_toRat_le hw hwpos (by omega)
  rw [div_le_iff₀ hwpos]
  exact_mod_cast hcells

/-- The rows of a structure are its share after three roundings, and none of these goes beyond a
whole share if the first one has not gone beyond that of an instance. -/
theorem rowsFor_near (hcount : count ≤ total) (hpos : 0 < total) (htotal : total < 2 ^ 53)
    (hwidth : 0 < width ∧ width ≤ 512) (hheight : height ≤ 512)
    (hshare : share.Near 1 ((width * height : ℕ) / total)) :
    ∃ q : Binary64, rowsFor count share width = .ok ⌈q.toRat⌉ ∧
      q.Near 3 ((count * height : ℕ) / total) ∧
      ∀ m : ℕ, ((count * height : ℕ) : ℚ) / total = m →
        share.toRat ≤ (width * height : ℕ) / total → q.toRat ≤ m := by
  obtain ⟨n, hn, hnear⟩ := near_fromInt (hcount.trans_lt htotal)
  obtain ⟨w, hw, hwnear⟩ := near_fromInt (show width < 2 ^ 53 by omega)
  have hwpos : (0 : ℚ) < width := Nat.cast_pos.mpr hwidth.1
  have hcells : (count : ℚ) * ((width * height : ℕ) / total)
      = (count * (width * height) : ℕ) / total := by
    push_cast
    ring
  have hrows : (count : ℚ) * ((width * height : ℕ) / total) / width
      = (count * height : ℕ) / total := by
    push_cast
    field_simp
  have hsize : width * height ≤ 512 * 512 := Nat.mul_le_mul hwidth.2 hheight
  -- the second rounding is that of the product and the third that of the quotient; neither comes
  -- near the ends of the range
  have hproduct : (n * share).Near 2 (count * ((width * height : ℕ) / total)) := by
    refine hnear.mul hshare (by positivity) (by positivity) (by decide) ?_
    rw [hcells]
    have hle := Nat.mul_le_mul (hcount.trans htotal.le) hsize
    exact moderate_div hpos (hle.trans (by norm_num)) (by omega)
  have hquotient : (n * share / w).Near 3 ((count * height : ℕ) / total) := by
    rw [← hrows]
    refine hproduct.div hwnear hwpos (by decide) ?_
    rw [hrows]
    have hle := Nat.mul_le_mul (hcount.trans htotal.le) hheight
    exact moderate_div hpos (hle.trans (by norm_num)) (by omega)
  refine ⟨n * share / w, ?_, hquotient, ?_⟩
  · obtain ⟨_, hmeasures⟩ := hquotient.measures
    exact rowsFor_eq_ok.mpr ⟨n, w, hn, hw, by omega, ceil_eq hmeasures.isFinite⟩
  · intro m hm hle
    have hm512 : m ≤ 512 := by
      have hle' : (m : ℚ) ≤ height := by
        rw [← hm, div_le_iff₀ (Nat.cast_pos.mpr hpos)]
        exact_mod_cast (Nat.mul_comm total height) ▸ Nat.mul_le_mul_right height hcount
      exact (Nat.cast_le.mp hle').trans hheight
    -- not above its exact value, the share of an instance takes up no more cells than `m` whole
    -- rows have
    have hcellsLe : (count : ℚ) * share.toRat ≤ m * width :=
      calc (count : ℚ) * share.toRat
          ≤ count * ((width * height : ℕ) / total) := by gcongr
        _ = m * width := by rw [← hm, ← hrows, div_mul_cancel₀ _ hwpos.ne']
    exact rows_le_of_whole hnear hwnear hshare hproduct hwidth hm512 hcellsLe

end Rounding

/-! ### Shares of a layout -/

/-- The rows of a grid that the instances of a structure are worth. -/
def rowShare (config : GridConfig) (structures : List Classified) (c : Classified) : ℚ :=
  c.instanceCount * config.height / Classified.totalInstances structures

/-- The cells of a grid that one instance is worth. -/
def cellShare (config : GridConfig) (structures : List Classified) : ℚ :=
  config.width * config.height / Classified.totalInstances structures

theorem rowShare_nonneg {config : GridConfig} {structures : List Classified} {c : Classified}
    (hcounts : ∀ c ∈ structures, 0 ≤ c.instanceCount) (hheight : 0 ≤ config.height)
    (hc : c ∈ structures) : 0 ≤ rowShare config structures c := by
  have htotal := totalInstances_nonneg hcounts
  have hcount := hcounts c hc
  exact div_nonneg (mul_nonneg (Int.cast_nonneg hcount) (Int.cast_nonneg hheight))
    (Int.cast_nonneg htotal)

/-- The share is the same where no instances count as one, because there is none to have it. -/
theorem rowShare_eq {config : GridConfig} {structures : List Classified} {c : Classified}
    {total : ℕ} (hcounts : ∀ c ∈ structures, 0 ≤ c.instanceCount) (hc : c ∈ structures)
    (ht : (if Classified.totalInstances structures = 0 then 1
      else Classified.totalInstances structures) = total) :
    rowShare config structures c = c.instanceCount * config.height / total := by
  rw [rowShare]
  split at ht
  next hzero =>
    have hnone : c.instanceCount = 0 :=
      Int.le_antisymm (hzero ▸ le_totalInstances hcounts c hc) (hcounts c hc)
    rw [hnone, Int.cast_zero, zero_mul, zero_div, zero_div]
  next => rw [ht, Int.cast_natCast]

/-- On a grid that can be asked for, every structure is given its share after three roundings,
rounded up. These do not go beyond a whole share if the first of them, which all structures have in
common, does not go beyond the share of an instance. -/
theorem exists_rowsFor_near {structures : List Classified} {config : GridConfig}
    (hcounts : ∀ c ∈ structures, 0 ≤ c.instanceCount)
    (htotal : Classified.totalInstances structures < 2 ^ 53)
    (hwidth : 1 ≤ config.width ∧ config.width ≤ 512)
    (hheight : 1 ≤ config.height ∧ config.height ≤ 512) :
    ∃ share, instanceShare config structures = .ok share ∧ ∀ c ∈ structures, ∃ q : Binary64,
      rowsFor c.instanceCount share config.width = .ok ⌈q.toRat⌉ ∧
      q.Near 3 (rowShare config structures c) ∧
      ∀ m : ℕ, rowShare config structures c = m → share.toRat ≤ cellShare config structures →
        q.toRat ≤ m := by
  obtain ⟨total, ht, hpos, hle⟩ := exists_total hcounts
  have hlt : total < 2 ^ 53 := by
    split at ht <;> omega
  -- from here on all numbers are natural ones
  obtain ⟨width, hw⟩ := Int.eq_ofNat_of_zero_le (show 0 ≤ config.width by omega)
  obtain ⟨height, hh⟩ := Int.eq_ofNat_of_zero_le (show 0 ≤ config.height by omega)
  have hsize : config.size = width * height := by
    rw [size_eq, hw, hh, Int.toNat_natCast, Int.toNat_natCast, Nat.mul_comm]
  have hcells : width * height ≤ 512 * 512 := Nat.mul_le_mul (by omega) (by omega)
  have hmoderate : Moderate ((width * height : ℕ) / total) :=
    moderate_div hpos (by omega) (by omega)
  obtain ⟨share, hshare, hnear⟩ := near_fromQuotient hpos hmoderate
  refine ⟨share, ?_, fun c hc => ?_⟩
  · rw [instanceShare, hsize, ht]
    exact hshare
  -- without instances the exact share is zero
  have hcellShare : cellShare config structures ≤ (width * height : ℕ) / total := by
    rw [cellShare, hw, hh]
    split at ht
    next hzero =>
      rw [hzero, Int.cast_zero, div_zero]
      positivity
    next =>
      rw [ht]
      push_cast
      exact le_rfl
  obtain ⟨count, hcount⟩ := Int.eq_ofNat_of_zero_le (hcounts c hc)
  have hcountLe : count ≤ total := by
    have := hle c hc
    omega
  obtain ⟨q, hq, hqnear, hwhole⟩ :=
    rowsFor_near hcountLe hpos hlt (by omega) (by omega) hnear
  have hrow : rowShare config structures c = (count * height : ℕ) / total := by
    rw [rowShare_eq hcounts hc ht, hcount, hh, Int.cast_natCast, Int.cast_natCast, ← Nat.cast_mul]
  rw [hrow]
  refine ⟨q, ?_, hqnear, fun m hm hle => hwhole m hm (hle.trans hcellShare)⟩
  rw [hcount, hw]
  exact hq

/-- What the rows that a structure is given have to do with its share. -/
structure GivenRows (config : GridConfig) (structures : List Classified) (share : Binary64)
    (c : Classified) (rows : ℤ) : Prop where
  /-- They are the share, off by one part in 2^51 at most, rounded up. -/
  near : ∃ q : ℚ, |q - rowShare config structures c| ≤ rowShare config structures c / 2 ^ 51 ∧
    rows = ⌈q⌉
  /-- So they are right or one row off. -/
  close : |rows - ⌈rowShare config structures c⌉| ≤ 1
  /-- A share between two numbers of rows is rounded up to the greater one. -/
  part : c.instanceCount * config.height < 2 ^ 51 → (∀ m : ℤ, rowShare config structures c ≠ m) →
    rows = ⌈rowShare config structures c⌉
  /-- A whole share is kept, unless that of an instance was rounded up. -/
  whole : ∀ m : ℤ, rowShare config structures c = m →
    rows = m ∨ rows = m + 1 ∧ cellShare config structures < share.toRat

/-- A number of rows that comes from three roundings. -/
theorem givenRows_of_near {structures : List Classified} {config : GridConfig}
    {share q : Binary64} {c : Classified} (hcounts : ∀ c ∈ structures, 0 ≤ c.instanceCount)
    (hpos : 0 < Classified.totalInstances structures)
    (hheight : 0 ≤ config.height ∧ config.height ≤ 512) (hc : c ∈ structures)
    (hq : q.Near 3 (rowShare config structures c))
    (hwhole : ∀ m : ℕ, rowShare config structures c = m →
      share.toRat ≤ cellShare config structures → q.toRat ≤ m) :
    GivenRows config structures share c ⌈q.toRat⌉ := by
  have hnonneg := rowShare_nonneg hcounts hheight.1 hc
  have hnear := hq.abs_sub_le hnonneg
  have hle : rowShare config structures c ≤ 512 := by
    rw [rowShare, div_le_iff₀ (Int.cast_pos.mpr hpos)]
    have hcount := le_totalInstances hcounts c hc
    exact_mod_cast (Int.mul_le_mul hcount hheight.2 hheight.1 hpos.le).trans_eq (Int.mul_comm _ _)
  constructor
  · exact ⟨q.toRat, hnear, rfl⟩
  · exact abs_ceil_sub_le hnear hle
  · intro hlt hne
    obtain ⟨total, ht⟩ := Int.eq_ofNat_of_zero_le hpos.le
    have hproduct : 0 ≤ c.instanceCount * config.height := Int.mul_nonneg (hcounts c hc) hheight.1
    obtain ⟨n, hn⟩ := Int.eq_ofNat_of_zero_le hproduct
    have hratio : rowShare config structures c = (n : ℚ) / total := by
      rw [rowShare, ht, ← Int.cast_mul, hn, Int.cast_natCast, Int.cast_natCast]
    rw [hratio] at hne hnear ⊢
    exact ceil_eq_ceil (by omega) (by omega) hnear hne
  · intro m hm
    rw [hm] at hnear hle hnonneg
    obtain ⟨k, rfl⟩ := Int.eq_ofNat_of_zero_le (Int.cast_nonneg_iff.mp hnonneg)
    rcases ceil_eq_or hnear hle with h | ⟨h, hgt⟩
    · exact .inl h
    · refine .inr ⟨h, ?_⟩
      -- the next number is only reached from above, which takes a share of an instance that was
      -- rounded up
      by_contra hge
      have hle' := hwhole k (by exact_mod_cast hm) (not_lt.mp hge)
      exact absurd hle' (not_le.mpr (by exact_mod_cast hgt))

/-- On a grid that can be asked for, every structure is given rows, and they are its exact share
rounded up, up to the error of three roundings. -/
theorem rowsFor_share {structures : List Classified} {config : GridConfig}
    (hcounts : ∀ c ∈ structures, 0 ≤ c.instanceCount)
    (hpos : 0 < Classified.totalInstances structures)
    (htotal : Classified.totalInstances structures < 2 ^ 53)
    (hwidth : 1 ≤ config.width ∧ config.width ≤ 512)
    (hheight : 1 ≤ config.height ∧ config.height ≤ 512) :
    ∃ share, instanceShare config structures = .ok share ∧ ∀ c ∈ structures, ∃ rows,
      rowsFor c.instanceCount share config.width = .ok rows ∧
      GivenRows config structures share c rows := by
  obtain ⟨share, hshare, hnear⟩ := exists_rowsFor_near hcounts htotal hwidth hheight
  refine ⟨share, hshare, fun c hc => ?_⟩
  obtain ⟨q, hq, hqnear, hwhole⟩ := hnear c hc
  exact ⟨_, hq, givenRows_of_near hcounts hpos (by omega) hc hqnear hwhole⟩

def evenStructures : List Classified :=
  [{ name := "A", instanceCount := 25 }, { name := "B", instanceCount := 25 }]

/-- On rows of seven cells both of them claim two rows, though they are worth one each. -/
theorem rowsFor_share_even :
    let config : GridConfig := { width := 7, height := 2 }
    (∀ c ∈ evenStructures, 0 ≤ c.instanceCount) ∧
    0 < Classified.totalInstances evenStructures ∧
    Classified.totalInstances evenStructures < 2 ^ 53 ∧
    (1 ≤ config.width ∧ config.width ≤ 512) ∧ (1 ≤ config.height ∧ config.height ≤ 512) ∧
    ∃ share, instanceShare config evenStructures = .ok share ∧
      cellShare config evenStructures < share.toRat ∧
      ∀ c ∈ evenStructures, rowShare config evenStructures c = 1 ∧
        rowsFor c.instanceCount share config.width = .ok 2 := by
  intro config
  have hcounts : ∀ c ∈ evenStructures, 0 ≤ c.instanceCount := by decide
  have hpos : 0 < Classified.totalInstances evenStructures := by decide
  have htotal : Classified.totalInstances evenStructures < 2 ^ 53 := by decide
  have hwidth : 1 ≤ config.width ∧ config.width ≤ 512 := by decide
  have hheight : 1 ≤ config.height ∧ config.height ≤ 512 := by decide
  obtain ⟨share, hshare, hgiven⟩ := rowsFor_share hcounts hpos htotal hwidth hheight
  have hexact : ∀ c ∈ evenStructures, rowShare config evenStructures c = 1 := by decide +kernel
  -- only what is computed in a row is evaluated, for the share is too large a term to be written
  -- down
  have hcomputed : ∀ c ∈ evenStructures, (do
      rowsFor c.instanceCount (← instanceShare config evenStructures) config.width) = .ok 2 := by
    decide +kernel
  have hrows : ∀ c ∈ evenStructures, rowsFor c.instanceCount share config.width = .ok 2 := by
    intro c hc
    obtain ⟨_, hshare', hrow⟩ := bind_eq_ok.mp (hcomputed c hc)
    obtain rfl := Except.ok.inj (hshare.symm.trans hshare')
    exact hrow
  -- two rows for the worth of one can only come from a share that was rounded up
  have hup : cellShare config evenStructures < share.toRat := by
    obtain ⟨c, hc⟩ : ∃ c, c ∈ evenStructures := ⟨_, List.mem_cons_self⟩
    obtain ⟨rows, hrow, hrounded⟩ := hgiven c hc
    obtain rfl : rows = 2 := Except.ok.inj (hrow.symm.trans (hrows c hc))
    rcases hrounded.whole 1 (by exact_mod_cast hexact c hc) with h | ⟨-, h⟩
    · cases h
    · exact h
  exact ⟨hcounts, hpos, htotal, hwidth, hheight, share, hshare, hup,
    fun c hc => ⟨hexact c hc, hrows c hc⟩⟩

end CellAtlas
