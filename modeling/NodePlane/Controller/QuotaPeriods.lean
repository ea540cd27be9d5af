import NodePlane.Library.Calendar
import NodePlane.Library.Zones
import NodePlane.Controller.Quotas

/-! The bounds of quota periods: resets on the wall clock of the installation's time zone. -/
namespace NodePlane
namespace Quotas
open Library Library.Calendar

def second : ℤ := 1000000

/-- `_on_day`: a time of day in a month; a day past the month's end is its last day. -/
def onDay (month dayOfMonth time : ℤ) : ℤ :=
  (monthStart month + min dayOfMonth (monthDays month) - 1) * day + (time - time % second)

/-- The monthly reset on the day and time of the anchor. -/
def monthlyReset (anchor : ℤ) (tz : Zone) (month : ℤ) : ℤ :=
  let shown := tz.wall anchor
  onDay month (shown / day - monthStart (monthOf (shown / day)) + 1) (shown % day)

/-- The bounds of the period of `now`, without an end if there is no reset. -/
def period (strategy : Strategy) (anchor : ℤ) (intervalDays : ℕ) (tz : Zone) (now : ℤ) :
    ℤ × Option ℤ :=
  let shown := tz.wall now
  match strategy with
  | .none => (anchor, none)
  | .calendarMonth =>
    let month := monthOf (shown / day)
    (tz.instant (monthStart month * day), some (tz.instant (monthStart (month + 1) * day)))
  | .monthlyAnchor =>
    let month := monthOf (shown / day)
    let month := if tz.instant (monthlyReset anchor tz month) > now then month - 1 else month
    (tz.instant (monthlyReset anchor tz month), some (tz.instant (monthlyReset anchor tz (month + 1))))
  | .interval =>
    -- whole days of wall-clock time
    let base := tz.wall anchor
    let step := intervalDays * day
    let count := (shown - base) / step
    (tz.instant (base + step * count), some (tz.instant (base + step * (count + 1))))

/-- The period holds `now`, and the next one starts where it ends. -/
def Tiles (strategy : Strategy) (anchor : ℤ) (intervalDays : ℕ) (tz : Zone) (now : ℤ) : Prop :=
  (period strategy anchor intervalDays tz now).1 ≤ now ∧
    ∀ stop ∈ (period strategy anchor intervalDays tz now).2,
      now < stop ∧ (period strategy anchor intervalDays tz stop).1 = stop

/-- The wall clock at `now` is not past a reset it skipped whose instant is to come, nor back before a
reset whose instant has come. -/
def Clear (strategy : Strategy) (anchor : ℤ) (intervalDays : ℕ) (tz : Zone) (now : ℤ) : Prop :=
  let shown := tz.wall now
  let month := monthOf (shown / day)
  match strategy with
  | .none => anchor ≤ now
  | .calendarMonth => ¬ tz.Skipped (monthStart month * day) now ∧
      ¬ tz.Repeated (monthStart (month + 1) * day) now
  | .monthlyAnchor => ¬ tz.Skipped (monthlyReset anchor tz (month - 1)) now ∧
      ¬ tz.Repeated (monthlyReset anchor tz (month + 1)) now
  | .interval =>
    let base := tz.wall anchor
    let step := intervalDays * day
    let count := (shown - base) / step
    ¬ tz.Skipped (base + step * count) now ∧ ¬ tz.Repeated (base + step * (count + 1)) now

instance (strategy : Strategy) (anchor : ℤ) (intervalDays : ℕ) (tz : Zone) (now : ℤ) :
    Decidable (Clear strategy anchor intervalDays tz now) :=
  match strategy with
  | .none => inferInstanceAs (Decidable (_ ≤ _))
  | .calendarMonth | .monthlyAnchor | .interval => inferInstanceAs (Decidable (_ ∧ _))

section Grid
variable {tz : Zone} {reset : ℤ → ℤ} (spaced : ∀ k, reset k + day ≤ reset (k + 1))
include spaced

theorem resets_mono {j k : ℤ} (ordered : j ≤ k) : reset j ≤ reset k :=
  monotone_int_of_le_succ (fun k => by have := spaced k; unfold day at this; omega) ordered

theorem resets_apart {j k : ℤ} (before : j < k) : reset j + day ≤ reset k :=
  Int.le_trans (spaced j) (resets_mono spaced before)

/-- The period that the wall clock chooses at a reset starts there, also if the reset was skipped. -/
theorem starts_at_reset {j k : ℤ} (past : reset k ≤ tz.wall (tz.instant (reset j)))
    (next : tz.wall (tz.instant (reset j)) < reset (k + 1)) :
    tz.instant (reset k) = tz.instant (reset j) := by
  obtain ⟨jump, forward, small, shows, same⟩ := tz.wall_instant (reset j)
  rw [shows] at past next
  rcases Int.lt_trichotomy k j with before | rfl | after
  · have := resets_mono spaced (show k + 1 ≤ j by omega)
    omega
  · rfl
  · have := resets_apart spaced after
    rw [show reset k = reset j + jump by omega, same]

end Grid

variable {tz : Zone} {now : ℤ}

/-- Between the resets that the wall clock is between. -/
theorem within_iff {before after : ℤ} (past : before ≤ tz.wall now) (next : tz.wall now < after) :
    (tz.instant before ≤ now ∧ now < tz.instant after) ↔
      ¬ tz.Skipped before now ∧ ¬ tz.Repeated after now := by
  rw [tz.skipped_iff, tz.repeated_iff]
  omega

theorem shown_day (tz : Zone) (now : ℤ) : monthStart (monthOf (tz.wall now / day)) * day ≤ tz.wall now ∧
    tz.wall now < monthStart (monthOf (tz.wall now / day) + 1) * day := by
  have bounds := monthOf_bounds (tz.wall now / day)
  unfold day at *
  omega

theorem months_spaced (k : ℤ) : monthStart k * day + day ≤ monthStart (k + 1) * day := by
  have := monthStart_lt k
  unfold day
  omega

theorem calendar_tiles {anchor : ℤ} {intervalDays : ℕ} :
    Tiles .calendarMonth anchor intervalDays tz now ↔ Clear .calendarMonth anchor intervalDays tz now := by
  obtain ⟨past, next⟩ := shown_day tz now
  refine Iff.trans ?_ (within_iff past next)
  simp only [Tiles, period, Option.mem_def, Option.some.injEq, forall_eq']
  refine and_congr_right fun _ => and_iff_left ?_
  obtain ⟨past, next⟩ := shown_day tz (tz.instant (monthStart (monthOf (tz.wall now / day) + 1) * day))
  exact starts_at_reset months_spaced past next

theorem interval_tiles {anchor : ℤ} {intervalDays : ℕ} (positive : 0 < intervalDays) :
    Tiles .interval anchor intervalDays tz now ↔ Clear .interval anchor intervalDays tz now := by
  have step : 0 < (intervalDays : ℤ) * day := Int.mul_pos (by omega) (by decide)
  have wide : day ≤ (intervalDays : ℤ) * day := by
    have := Int.mul_le_mul_of_nonneg_right (show (1 : ℤ) ≤ intervalDays by omega) (show 0 ≤ day by decide)
    rwa [Int.one_mul] at this
  have spaced : ∀ k : ℤ, tz.wall anchor + intervalDays * day * k + day ≤
      tz.wall anchor + intervalDays * day * (k + 1) := by
    intro k
    rw [Int.mul_add, Int.mul_one]
    omega
  have chosen : ∀ shown : ℤ,
      tz.wall anchor + intervalDays * day * ((shown - tz.wall anchor) / (intervalDays * day)) ≤ shown ∧
      shown < tz.wall anchor + intervalDays * day * ((shown - tz.wall anchor) / (intervalDays * day) + 1) := by
    intro shown
    have := Int.mul_ediv_self_le (x := shown - tz.wall anchor) (k := intervalDays * day) (by omega)
    have := Int.lt_mul_ediv_self_add (x := shown - tz.wall anchor) step
    rw [Int.mul_add, Int.mul_one]
    omega
  obtain ⟨past, next⟩ := chosen (tz.wall now)
  refine Iff.trans ?_ (within_iff past next)
  simp only [Tiles, period, Option.mem_def, Option.some.injEq, forall_eq']
  refine and_congr_right fun _ => and_iff_left ?_
  obtain ⟨past, next⟩ := chosen (tz.wall (tz.instant _))
  exact starts_at_reset spaced past next

section Monthly
variable (anchor : ℤ) (tz : Zone)

/-- A monthly reset is in its month, on one of the last days where the month is short. -/
theorem onDay_bounds (month time : ℤ) {dayOfMonth : ℤ} (first : 1 ≤ dayOfMonth) (least : 0 ≤ time)
    (most : time < day) :
    monthStart month * day ≤ onDay month dayOfMonth time ∧
      onDay month dayOfMonth time < monthStart (month + 1) * day := by
  have := monthDays_bounds month
  have : monthStart (month + 1) = monthStart month + monthDays month := by
    unfold monthDays
    omega
  have : 0 ≤ time - time % second ∧ time - time % second ≤ time := by
    unfold second
    omega
  unfold onDay
  unfold day at *
  omega

theorem onDay_spaced (month dayOfMonth time : ℤ) :
    onDay month dayOfMonth time + 28 * day ≤ onDay (month + 1) dayOfMonth time := by
  have := monthDays_bounds month
  have := monthDays_bounds (month + 1)
  have : monthStart (month + 1) = monthStart month + monthDays month := by
    unfold monthDays
    omega
  unfold onDay day
  omega

/-- The anchor's day of the month and time of day. -/
theorem anchor_bounds (shown : ℤ) : 1 ≤ shown / day - monthStart (monthOf (shown / day)) + 1 ∧
    shown / day - monthStart (monthOf (shown / day)) + 1 ≤ 31 ∧ 0 ≤ shown % day ∧ shown % day < day := by
  have bounds := monthOf_bounds (shown / day)
  have := (monthDays_bounds (monthOf (shown / day))).2
  unfold monthDays at this
  have := Int.emod_nonneg shown (show day ≠ 0 by decide)
  have := Int.emod_lt_of_pos shown (show 0 < day by decide)
  omega

theorem reset_bounds (month : ℤ) : monthStart month * day ≤ monthlyReset anchor tz month ∧
    monthlyReset anchor tz month < monthStart (month + 1) * day :=
  have bounds := anchor_bounds (tz.wall anchor)
  onDay_bounds month _ bounds.1 bounds.2.2.1 bounds.2.2.2

theorem reset_spaced (month : ℤ) :
    monthlyReset anchor tz month + 28 * day ≤ monthlyReset anchor tz (month + 1) :=
  onDay_spaced month _ _

theorem reset_instants (month : ℤ) : tz.instant (monthlyReset anchor tz month) <
    tz.instant (monthlyReset anchor tz (month + 1)) := by
  have := reset_spaced anchor tz month
  have := tz.instant_near (monthlyReset anchor tz month)
  have := tz.instant_near (monthlyReset anchor tz (month + 1))
  unfold day at *
  omega

/-- The period at a reset starts there. -/
theorem monthly_at_reset (intervalDays : ℕ) (month : ℤ) :
    (period .monthlyAnchor anchor intervalDays tz (tz.instant (monthlyReset anchor tz month))).1 =
      tz.instant (monthlyReset anchor tz month) := by
  obtain ⟨jump, forward, small, shows, -⟩ := tz.wall_instant (monthlyReset anchor tz month)
  obtain ⟨past, next⟩ := shown_day tz (tz.instant (monthlyReset anchor tz month))
  have within := reset_bounds anchor tz month
  rw [shows] at past next
  simp only [period, shows]
  -- a skipped reset may show as a time of the next month
  have months : monthOf ((monthlyReset anchor tz month + jump) / day) = month ∨
      monthOf ((monthlyReset anchor tz month + jump) / day) = month + 1 := by
    have length := (monthDays_bounds (month + 1)).1
    unfold monthDays at length
    by_cases same : monthlyReset anchor tz month + jump < monthStart (month + 1) * day
    · refine .inl (monthOf_eq ?_ ?_) <;> unfold day at * <;> omega
    · refine .inr (monthOf_eq ?_ ?_) <;> unfold day at * <;> omega
  rcases months with here | later
  · rw [here, if_neg (Int.lt_irrefl _)]
  · rw [later, if_pos (reset_instants anchor tz month), Int.add_sub_cancel]

theorem monthly_tiles {intervalDays : ℕ} :
    Tiles .monthlyAnchor anchor intervalDays tz now ↔ Clear .monthlyAnchor anchor intervalDays tz now := by
  obtain ⟨past, next⟩ := shown_day tz now
  have tiled : ∀ month : ℤ, (period .monthlyAnchor anchor intervalDays tz now) =
      (tz.instant (monthlyReset anchor tz month), some (tz.instant (monthlyReset anchor tz (month + 1)))) →
      (Tiles .monthlyAnchor anchor intervalDays tz now ↔ tz.instant (monthlyReset anchor tz month) ≤ now ∧
        now < tz.instant (monthlyReset anchor tz (month + 1))) := by
    intro month bounds
    rw [Tiles, bounds]
    refine and_congr_right fun _ => ?_
    simp only [Option.mem_def, Option.some.injEq, forall_eq']
    exact and_iff_left (monthly_at_reset anchor tz intervalDays (month + 1))
  unfold Clear
  dsimp only
  generalize month : monthOf (tz.wall now / day) = i at *
  rw [tz.skipped_iff, tz.repeated_iff]
  have before := (reset_bounds anchor tz (i - 1)).2
  have after := (reset_bounds anchor tz (i + 1)).1
  have earlier := reset_instants anchor tz (i - 1)
  have later := reset_instants anchor tz i
  rw [Int.sub_add_cancel] at before earlier
  by_cases future : tz.instant (monthlyReset anchor tz i) > now
  · rw [tiled (i - 1) (by simp only [period, month, if_pos future]), Int.sub_add_cancel]
    omega
  · rw [tiled i (by simp only [period, month, if_neg future])]
    omega

end Monthly

/-- Periods tile the time of a zone exactly at the instants that are clear of skipped and repeated
resets, whatever the strategy. -/
theorem tiles_iff (strategy : Strategy) (anchor : ℤ) {intervalDays : ℕ} (positive : 0 < intervalDays)
    (tz : Zone) (now : ℤ) :
    Tiles strategy anchor intervalDays tz now ↔ Clear strategy anchor intervalDays tz now := by
  cases strategy with
  | calendarMonth => exact calendar_tiles
  | monthlyAnchor => exact monthly_tiles anchor tz
  | interval => exact interval_tiles positive
  | none => simp [Tiles, period, Clear]

/-- The clock goes back from 3:00 to 2:00 on 2026-10-25 at 1:00 UTC. -/
def autumn : Zone where
  first := 7200000000
  changes := [(739913 * day + 3600000000, 3600000000)]
  sound := by simp [Zone.Sound, day]

theorem tiles_summer : Tiles .interval (739888 * day) 1 autumn (739900 * day) ∧
    Clear .interval (739888 * day) 1 autumn (739900 * day) := by
  have clear : Clear .interval (739888 * day) 1 autumn (739900 * day) := by decide
  exact ⟨(tiles_iff .interval (739888 * day) (by decide) autumn (739900 * day)).mpr clear, clear⟩

/-- With a daily reset at 2:30, at 2:10 for the second time the period ended at 2:30 for the first. -/
theorem daily_reset_ended : ¬ Tiles .interval (739888 * day + 1800000000) 1 autumn
    (739913 * day + 4200000000) := by
  rintro ⟨-, within⟩
  have ended : (period .interval (739888 * day + 1800000000) 1 autumn
      (739913 * day + 4200000000)).2 = some (739913 * day + 1800000000) := by decide
  exact absurd (within _ ended).1 (by decide)

end Quotas
end NodePlane
