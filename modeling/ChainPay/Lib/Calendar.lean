import Mathlib.Data.Int.Order.Basic

/-!
The civil calendar over days counted from 1970-01-01: `civilFromDays` and
`daysFromCivil`, on years that begin in March and eras of 400 years, so that the leap
day ends its year. `daysFromCivil_civilFromDays` is the round trip for every day and
`civilFromDays_strictMono` the order: dates compare as their days do.
-/

namespace ChainPay.Lib.Calendar

/-- Days of an era before its year `yoe`. -/
def yearStart (yoe : Int) : Int := 365 * yoe + yoe / 4 - yoe / 100

/-- The year of an era that day `doe` of it falls in. -/
def yearOfEra (doe : Int) : Int := (doe - doe / 1460 + doe / 36524 - doe / 146096) / 365

/-- Days of a year before its month `mp`, counted from March. -/
def monthStart (mp : Int) : Int := (153 * mp + 2) / 5

/-- The month, counted from March, that day `doy` of a year falls in. -/
def monthOfYear (doy : Int) : Int := (5 * doy + 2) / 153

structure Date where
  year : Int
  month : Int
  day : Int
  deriving DecidableEq, Repr

/-- The date of a day since 1970-01-01. -/
def civilFromDays (days : Int) : Date :=
  let z := days + 719468
  let era := z / 146097
  let doe := z % 146097
  let yoe := yearOfEra doe
  let doy := doe - yearStart yoe
  let mp := monthOfYear doy
  let m := if mp < 10 then mp + 3 else mp - 9
  { year := if m ≤ 2 then yoe + era * 400 + 1 else yoe + era * 400
    month := m
    day := doy - monthStart mp + 1 }

/-- The day since 1970-01-01 of a date. -/
def daysFromCivil (date : Date) : Int :=
  let y := if date.month ≤ 2 then date.year - 1 else date.year
  let era := y / 400
  let yoe := y - era * 400
  let mp := (date.month + 9) % 12
  let doy := monthStart mp + date.day - 1
  let doe := yearStart yoe + doy
  era * 146097 + doe - 719468

/-! ## Years of an era -/

/-- The first and the last day of every year of an era but the last one's leap day. -/
theorem yearOfEra_ends : ∀ y : Fin 400,
    yearOfEra (yearStart y.val) = y.val ∧ yearOfEra (yearStart (y.val + 1) - 1) = y.val := by
  decide +kernel

theorem yearOfEra_last : yearOfEra 146096 = 399 := by decide

theorem yearOfEra_mono {a b : Int} (hab : a ≤ b) (hb : b < 146096) (ha : 0 ≤ a) :
    yearOfEra a ≤ yearOfEra b := by
  have hcentury : a / 146096 = 0 := Int.ediv_eq_zero_of_lt ha (by omega)
  have hcentury' : b / 146096 = 0 := Int.ediv_eq_zero_of_lt (by omega) hb
  have hterms : a - a / 1460 + a / 36524 ≤ b - b / 1460 + b / 36524 := by omega
  unfold yearOfEra
  rw [hcentury, hcentury']
  exact Int.ediv_le_ediv (by decide) (by omega)

theorem yearStart_step (y : Int) :
    yearStart y + 365 ≤ yearStart (y + 1) ∧ yearStart (y + 1) ≤ yearStart y + 366 := by
  unfold yearStart
  omega

/-- A day of an era lies in the year read off for it. -/
theorem yearOfEra_bounds {doe : Int} (h₀ : 0 ≤ doe) (h₁ : doe < 146097) :
    0 ≤ yearOfEra doe ∧ yearOfEra doe < 400 ∧ yearStart (yearOfEra doe) ≤ doe ∧
      doe ≤ yearStart (yearOfEra doe) + 365 := by
  by_cases hlast : doe = 146096
  · subst hlast
    rw [yearOfEra_last]
    decide
  have hzero : yearOfEra 0 = 0 := by decide
  have hend : yearOfEra 146095 = 399 := by decide
  have hge : 0 ≤ yearOfEra doe := hzero ▸ yearOfEra_mono h₀ (by omega) (by decide)
  have hle : yearOfEra doe ≤ 399 := hend ▸ yearOfEra_mono (by omega) (by decide) h₀
  obtain ⟨y, hy⟩ : ∃ y : Nat, yearOfEra doe = y := ⟨_, (Int.toNat_of_nonneg hge).symm⟩
  rw [hy] at hge hle ⊢
  have hy400 : y < 400 := by omega
  refine ⟨hge, by omega, ?_, ?_⟩
  · -- an earlier day belongs to an earlier year
    by_contra hlt
    have hpos : 0 < y := by
      rcases Nat.eq_zero_or_pos y with rfl | hpos
      · exact absurd h₀ (by simpa [yearStart] using hlt)
      · exact hpos
    have hprev := (yearOfEra_ends ⟨y - 1, by omega⟩).2
    have hcast : ((y - 1 : Nat) : Int) + 1 = y := by omega
    simp only [hcast] at hprev
    have hbound : yearStart (y : Int) ≤ 146096 := by
      unfold yearStart
      omega
    have hmono := yearOfEra_mono (a := doe) (b := yearStart (y : Int) - 1) (by omega) (by omega) h₀
    rw [hprev, hy] at hmono
    omega
  · -- and a later day to a later one, unless the year is the last
    by_contra hgt
    have hstep := (yearStart_step (y : Int)).2
    by_cases hlasty : y = 399
    · subst hlasty
      have hstart : yearStart ((399 : Nat) : Int) = 145731 := by decide
      omega
    · have hnext := (yearOfEra_ends ⟨y + 1, by omega⟩).1
      have hcast : ((y + 1 : Nat) : Int) = y + 1 := by omega
      simp only [hcast] at hnext
      have hstart : 0 ≤ yearStart ((y : Int) + 1) := by
        unfold yearStart
        omega
      have hmono := yearOfEra_mono (a := yearStart ((y : Int) + 1)) (b := doe) (by omega)
        (by omega) hstart
      rw [hnext, hy] at hmono
      omega

theorem yearOfEra_le {a b : Int} (ha : 0 ≤ a) (hab : a ≤ b) (hb : b < 146097) :
    yearOfEra a ≤ yearOfEra b := by
  by_cases hlast : b = 146096
  · subst hlast
    have hbound := (yearOfEra_bounds ha (by omega)).2.1
    rw [yearOfEra_last]
    omega
  · exact yearOfEra_mono hab (by omega) ha

/-! ## Months of a year -/

theorem monthOfYear_bounds {doy : Int} (h₀ : 0 ≤ doy) (h₁ : doy ≤ 365) :
    0 ≤ monthOfYear doy ∧ monthOfYear doy ≤ 11 ∧ monthStart (monthOfYear doy) ≤ doy ∧
      doy ≤ monthStart (monthOfYear doy) + 30 := by
  unfold monthOfYear monthStart
  omega

/-! ## Dates -/

/-- What a day is made of: its era, the year of that, the month of the year and the day of the
month, the last two counted from zero. -/
structure Parts (days era yoe mp d : Int) : Prop where
  year : 0 ≤ yoe ∧ yoe < 400
  month : 0 ≤ mp ∧ mp ≤ 11
  day : 0 ≤ d ∧ d ≤ 30
  inYear : monthStart mp + d ≤ 365
  total : days = era * 146097 + (yearStart yoe + (monthStart mp + d)) - 719468
  era_eq : era = (days + 719468) / 146097
  yoe_eq : yoe = yearOfEra ((days + 719468) % 146097)
  mp_eq : mp = monthOfYear (monthStart mp + d)
  civil : civilFromDays days =
    ⟨if mp < 10 then yoe + era * 400 else yoe + era * 400 + 1,
      if mp < 10 then mp + 3 else mp - 9, d + 1⟩

theorem parts (days : Int) : ∃ era yoe mp d, Parts days era yoe mp d := by
  have hmod₀ : 0 ≤ (days + 719468) % 146097 := Int.emod_nonneg _ (by decide)
  have hmod₁ : (days + 719468) % 146097 < 146097 := Int.emod_lt_of_pos _ (by decide)
  have hsplit := Int.emod_add_mul_ediv (days + 719468) 146097
  obtain ⟨hy₀, hy₁, hs, he⟩ := yearOfEra_bounds hmod₀ hmod₁
  generalize hyoe : yearOfEra ((days + 719468) % 146097) = yoe at *
  obtain ⟨hm₀, hm₁, hms, hme⟩ := @monthOfYear_bounds
    ((days + 719468) % 146097 - yearStart yoe) (by omega) (by omega)
  generalize hmp : monthOfYear ((days + 719468) % 146097 - yearStart yoe) = mp at *
  have hdoy : monthStart mp + ((days + 719468) % 146097 - yearStart yoe - monthStart mp) =
      (days + 719468) % 146097 - yearStart yoe := by omega
  refine ⟨(days + 719468) / 146097, yoe, mp,
    (days + 719468) % 146097 - yearStart yoe - monthStart mp, ⟨hy₀, hy₁⟩, ⟨hm₀, hm₁⟩, by omega,
    by omega, by omega, rfl, hyoe.symm, ?_, ?_⟩
  · rw [hdoy, hmp]
  · unfold civilFromDays
    dsimp only
    rw [hyoe, hmp]
    by_cases hlate : mp < 10
    · rw [if_pos hlate, if_pos hlate, if_neg (by omega)]
    · rw [if_neg hlate, if_neg hlate, if_pos (by omega)]

/-- **Round trip.** The date of a day is that day's. -/
theorem daysFromCivil_civilFromDays (days : Int) : daysFromCivil (civilFromDays days) = days := by
  obtain ⟨era, yoe, mp, d, hp⟩ := parts days
  obtain ⟨hy₀, hy₁⟩ := hp.year
  obtain ⟨hm₀, hm₁⟩ := hp.month
  have htotal := hp.total
  rw [hp.civil]
  unfold daysFromCivil
  dsimp only
  have hy : (if (if mp < 10 then mp + 3 else mp - 9) ≤ 2 then
      (if mp < 10 then yoe + era * 400 else yoe + era * 400 + 1) - 1
      else if mp < 10 then yoe + era * 400 else yoe + era * 400 + 1) = yoe + era * 400 := by
    split <;> split <;> omega
  have hera : (yoe + era * 400) / 400 = era := by omega
  have hmp : ((if mp < 10 then mp + 3 else mp - 9) + 9) % 12 = mp := by
    split <;> omega
  rw [hy, hera, hmp, Int.add_sub_cancel]
  omega

/-- The fields of a date are in range. -/
theorem civilFromDays_fields (days : Int) :
    1 ≤ (civilFromDays days).month ∧ (civilFromDays days).month ≤ 12 ∧
      1 ≤ (civilFromDays days).day ∧ (civilFromDays days).day ≤ 31 := by
  obtain ⟨era, yoe, mp, d, hp⟩ := parts days
  obtain ⟨hm₀, hm₁⟩ := hp.month
  obtain ⟨hd₀, hd₁⟩ := hp.day
  rw [hp.civil]
  dsimp only
  refine ⟨?_, ?_, by omega, by omega⟩
  · split <;> omega
  · split <;> omega

/-- Earlier by the year, the month of the same year, or the day of the same month. -/
def Date.Before (a b : Date) : Prop :=
  a.year < b.year ∨ a.year = b.year ∧ (a.month < b.month ∨ a.month = b.month ∧ a.day < b.day)

/-- An earlier day lies in an earlier year, month or day, in terms of its parts. -/
theorem parts_lt {x y ex ey yx yy mx my dx dy : Int} (hx : Parts x ex yx mx dx)
    (hy : Parts y ey yy my dy) (hlt : x < y) :
    yx + ex * 400 < yy + ey * 400 ∨
      (yx + ex * 400 = yy + ey * 400 ∧ (mx < my ∨ mx = my ∧ dx < dy)) := by
  have hera : ex ≤ ey := by
    rw [hx.era_eq, hy.era_eq]
    exact Int.ediv_le_ediv (by decide) (by omega)
  obtain ⟨hyx₀, hyx₁⟩ := hx.year
  obtain ⟨hyy₀, hyy₁⟩ := hy.year
  rcases Int.lt_or_eq_of_le hera with hera | hera
  · exact .inl (by omega)
  subst hera
  have htx := hx.total
  have hty := hy.total
  have hyear : yx ≤ yy := by
    have hmod : (x + 719468) % 146097 ≤ (y + 719468) % 146097 := by
      have hex := hx.era_eq
      have hey := hy.era_eq
      omega
    rw [hx.yoe_eq, hy.yoe_eq]
    exact yearOfEra_le (Int.emod_nonneg _ (by decide)) hmod (Int.emod_lt_of_pos _ (by decide))
  rcases Int.lt_or_eq_of_le hyear with hyear | hyear
  · exact .inl (by omega)
  subst hyear
  have hmonth : mx ≤ my := by
    rw [hx.mp_eq, hy.mp_eq]
    unfold monthOfYear
    exact Int.ediv_le_ediv (by decide) (by omega)
  rcases Int.lt_or_eq_of_le hmonth with hmonth | hmonth
  · exact .inr ⟨rfl, .inl hmonth⟩
  · subst hmonth
    exact .inr ⟨rfl, .inr ⟨rfl, by omega⟩⟩

/-- **Order.** Dates compare as their days do. -/
theorem civilFromDays_strictMono {x y : Int} (hlt : x < y) :
    (civilFromDays x).Before (civilFromDays y) := by
  obtain ⟨ex, yx, mx, dx, hx⟩ := parts x
  obtain ⟨ey, yy, my, dy, hy⟩ := parts y
  have hparts := parts_lt hx hy hlt
  obtain ⟨hmx₀, hmx₁⟩ := hx.month
  obtain ⟨hmy₀, hmy₁⟩ := hy.month
  rw [hx.civil, hy.civil]
  unfold Date.Before
  dsimp only
  split <;> split <;> omega

end ChainPay.Lib.Calendar
