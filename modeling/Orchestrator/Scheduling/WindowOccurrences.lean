import Mathlib.Order.Bounds.Basic
import Mathlib.Tactic.Linarith
import Mathlib.Tactic.NormNum
import Mathlib.Tactic.Ring
import Orchestrator.Scheduling.OperatingHours

/-! # Window occurrences

What the weekly schedule says, apart from how `operatingHoursFor` computes it: a
window of a day is a stretch of time from its start on that day, and work may run
while some stretch contains the time. Times are minutes from today's midnight, so
yesterday's midnight is at `-dayMinutes`.
-/

namespace Orchestrator

/-- A stretch of time `[start, finish)`. -/
structure Occurrence where
  start : ℚ
  finish : ℚ

def Occurrence.Contains (occurrence : Occurrence) (time : ℚ) : Prop :=
  occurrence.start ≤ time ∧ time < occurrence.finish

/-- The stretch of a window on the day that begins at `midnight`: an end at or before
the start is on the next day. -/
def ScheduleWindow.occurrence (window : ScheduleWindow) (midnight : ℚ) : Occurrence where
  start := midnight + minutesSinceMidnight window.start
  finish := midnight + minutesSinceMidnight window.finish +
    if minutesSinceMidnight window.finish ≤ minutesSinceMidnight window.start then dayMinutes else 0

/-- A window of today's enabled day. -/
def OccursToday (schedule : ScheduleConfig) (weekday : ScheduleDay) (occurrence : Occurrence) :
    Prop :=
  (schedule.days weekday).enabled = true ∧
    ∃ window ∈ (schedule.days weekday).windows, occurrence = window.occurrence 0

/-- An overnight window of yesterday's enabled day. -/
def OccursOvernight (schedule : ScheduleConfig) (weekday : ScheduleDay) (occurrence : Occurrence) :
    Prop :=
  (schedule.days (previousDay weekday)).enabled = true ∧
    ∃ window ∈ (schedule.days (previousDay weekday)).windows, window.overnight = true ∧
      occurrence = window.occurrence (-dayMinutes)

/-- The occurrences that contain the time. -/
def Current (occurs : ScheduleConfig → ScheduleDay → Occurrence → Prop)
    (schedule : ScheduleConfig) (now : LocalTime) (occurrence : Occurrence) : Prop :=
  occurs schedule now.weekday occurrence ∧ occurrence.Contains now.currentMinutes

def CurrentOccurrence (schedule : ScheduleConfig) (now : LocalTime) (occurrence : Occurrence) :
    Prop :=
  Current OccursToday schedule now occurrence ∨ Current OccursOvernight schedule now occurrence

/-- The minutes to the end of the given occurrences. -/
def minutesToEnd (now : LocalTime) (occurs : Occurrence → Prop) : Set ℚ :=
  { minutes | ∃ occurrence, occurs occurrence ∧
      minutes = occurrence.finish - now.currentMinutes }

/-- The answer is open exactly inside an occurrence, and then until the last of the
occurrences that contain the time ends. -/
structure HoursExact (schedule : ScheduleConfig) (now : LocalTime) (hours : OperatingHours) :
    Prop where
  isOpen : hours.isOpen = true ↔ ∃ occurrence, CurrentOccurrence schedule now occurrence
  remaining : hours.isOpen = true → ∃ minutes : ℚ, hours.minutesRemaining = (minutes : Minutes) ∧
    IsGreatest (minutesToEnd now (CurrentOccurrence schedule now)) minutes

/-- Where a window of today contains the time, every overnight window of yesterday that
still runs ends no later than such a window. -/
def NoLongerOvernight (schedule : ScheduleConfig) (now : LocalTime) : Prop :=
  (∃ today, Current OccursToday schedule now today) →
    ∀ overnight, Current OccursOvernight schedule now overnight →
      ∃ today, Current OccursToday schedule now today ∧ overnight.finish ≤ today.finish

/-! ## Times of a day -/

theorem minutesSinceMidnight_nonneg (value : TimeOfDay) : 0 ≤ minutesSinceMidnight value :=
  Nat.cast_nonneg _

theorem minutesSinceMidnight_lt (value : TimeOfDay) : minutesSinceMidnight value < dayMinutes := by
  have hbound : value.hours.val * 60 + value.minutes.val < 24 * 60 := by omega
  have hcast : ((value.hours.val * 60 + value.minutes.val : Nat) : ℚ) < ((24 * 60 : Nat) : ℚ) :=
    Nat.cast_lt.mpr hbound
  unfold minutesSinceMidnight dayMinutes
  norm_num at hcast ⊢
  exact hcast

theorem LocalTime.currentMinutes_nonneg (now : LocalTime) : 0 ≤ now.currentMinutes := by
  have hminutes : (0 : ℚ) ≤ (now.hour.val * 60 + now.minute.val : Nat) := Nat.cast_nonneg _
  have hseconds : (0 : ℚ) ≤ (now.second.val : ℚ) := Nat.cast_nonneg _
  unfold LocalTime.currentMinutes
  linarith

theorem LocalTime.currentMinutes_lt (now : LocalTime) : now.currentMinutes < dayMinutes := by
  have hbound : now.hour.val * 60 + now.minute.val ≤ 24 * 60 - 1 := by omega
  have hminutes : ((now.hour.val * 60 + now.minute.val : Nat) : ℚ) ≤ ((24 * 60 - 1 : Nat) : ℚ) :=
    Nat.cast_le.mpr hbound
  have hseconds : (now.second.val : ℚ) < 60 := by exact_mod_cast now.second.isLt
  unfold LocalTime.currentMinutes dayMinutes
  norm_num at hminutes ⊢
  linarith

/-! ## The loops -/

theorem openFor_eq_none {active : List ScheduleWindow} {remaining : ScheduleWindow → ℚ} :
    openFor active remaining = none ↔ active = [] := by
  unfold openFor
  split <;> simp_all

/-- The accumulator of a loop is its start or the value of a window, and bounds both. -/
theorem foldl_max_isGreatest (remaining : ScheduleWindow → ℚ) (active : List ScheduleWindow)
    (first : ℚ) :
    IsGreatest { minutes | minutes = first ∨ ∃ window ∈ active, minutes = remaining window }
      (active.foldl (fun longest window => max longest (remaining window)) first) := by
  induction active generalizing first with
  | nil =>
      constructor
      · exact .inl rfl
      · rintro minutes (rfl | ⟨window, hmem, -⟩)
        · exact le_rfl
        · cases hmem
  | cons window rest ih =>
      have hrest := ih (max first (remaining window))
      constructor
      · rcases hrest.1 with hfirst | ⟨other, hmem, hother⟩
        · rcases max_choice first (remaining window) with hmax | hmax
          · exact .inl (hfirst.trans hmax)
          · exact .inr ⟨window, List.mem_cons_self, hfirst.trans hmax⟩
        · exact .inr ⟨other, List.mem_cons_of_mem _ hmem, hother⟩
      · have hstart := hrest.2 (.inl rfl)
        rintro minutes (rfl | ⟨other, hmem, rfl⟩)
        · exact (le_max_left _ _).trans hstart
        · rcases List.mem_cons.mp hmem with rfl | hmem
          · exact (le_max_right _ _).trans hstart
          · exact hrest.2 (.inr ⟨other, hmem, rfl⟩)

theorem openFor_isGreatest {active : List ScheduleWindow} {remaining : ScheduleWindow → ℚ}
    {minutes : ℚ} (hpositive : ∀ window ∈ active, 0 < remaining window)
    (hopen : openFor active remaining = some minutes) :
    IsGreatest { minutes | ∃ window ∈ active, minutes = remaining window } minutes := by
  unfold openFor at hopen
  split_ifs at hopen with hactive
  have hgreatest := foldl_max_isGreatest remaining active 0
  rw [Option.some.inj hopen] at hgreatest
  refine ⟨?_, fun other hother => hgreatest.2 (.inr hother)⟩
  rcases hgreatest.1 with hzero | hwindow
  · -- Zero is below the value of any window.
    rcases List.exists_mem_of_ne_nil active hactive with ⟨window, hmem⟩
    have hle := hgreatest.2 (.inr ⟨window, hmem, rfl⟩)
    have hlt := hpositive window hmem
    exact absurd (hlt.trans_le (hle.trans hzero.le)) (lt_irrefl _)
  · exact hwindow

theorem activeToday_iff {window : ScheduleWindow} {time : ℚ} (htime : time < dayMinutes) :
    window.activeToday time = true ↔ (window.occurrence 0).Contains time := by
  have hfinish := minutesSinceMidnight_nonneg window.finish
  unfold ScheduleWindow.activeToday ScheduleWindow.occurrence Occurrence.Contains
  by_cases hovernight : window.overnight = true
  · have hle := of_decide_eq_true hovernight
    simp only [hovernight, if_true, decide_eq_true_eq, hle, zero_add, iff_self_and]
    intro _
    linarith
  · have hle : ¬ minutesSinceMidnight window.finish ≤ minutesSinceMidnight window.start :=
      fun h => hovernight (decide_eq_true h)
    simp [hovernight, hle]

theorem minutesRemaining_today {window : ScheduleWindow} {time : ℚ}
    (hactive : window.activeToday time = true) :
    windowMinutesRemaining time window.finish = (window.occurrence 0).finish - time := by
  unfold ScheduleWindow.activeToday at hactive
  unfold windowMinutesRemaining ScheduleWindow.occurrence
  by_cases hovernight : window.overnight = true
  · have hle := of_decide_eq_true hovernight
    have hstart : minutesSinceMidnight window.start ≤ time := by simpa [hovernight] using hactive
    have hnot : ¬ time < minutesSinceMidnight window.finish := not_lt.mpr (hle.trans hstart)
    simp only [hnot, if_false, hle, if_true]
    ring
  · have hle : ¬ minutesSinceMidnight window.finish ≤ minutesSinceMidnight window.start :=
      fun h => hovernight (decide_eq_true h)
    have hlt : time < minutesSinceMidnight window.finish := by
      simp [hovernight] at hactive
      exact hactive.2
    simp only [hlt, if_true, hle, if_false]
    ring

theorem activeFromYesterday_iff {window : ScheduleWindow} {time : ℚ} (htime : 0 ≤ time) :
    window.activeFromYesterday time = true ↔
      window.overnight = true ∧ (window.occurrence (-dayMinutes)).Contains time := by
  have hstart := minutesSinceMidnight_lt window.start
  unfold ScheduleWindow.activeFromYesterday ScheduleWindow.occurrence Occurrence.Contains
  rw [Bool.and_eq_true, decide_eq_true_eq]
  refine and_congr_right fun hovernight => ?_
  have hle := of_decide_eq_true hovernight
  simp only [hle, if_true]
  constructor
  · intro hlt
    exact ⟨by linarith, by linarith⟩
  · rintro ⟨-, hlt⟩
    linarith

/-- What one loop finds: nothing where no occurrence of its kind contains the time, and
else the minutes to the last end. -/
structure LoopExact (occurs : Occurrence → Prop) (now : LocalTime) (found : Option ℚ) : Prop where
  none : found = none ↔ ∀ occurrence, ¬ occurs occurrence
  some : ∀ minutes, found = some minutes → IsGreatest (minutesToEnd now occurs) minutes

/-- A loop over the active windows of a day is exact where being active is containing the
time and the remaining minutes are those to the occurrence's end. -/
theorem loopExact {occurs : Occurrence → Prop} {now : LocalTime} {enabled : Bool}
    {windows : List ScheduleWindow} {active : ScheduleWindow → Bool}
    {remaining : ScheduleWindow → ℚ} {midnight : ℚ}
    (hoccurs : ∀ occurrence, occurs occurrence ↔ enabled = true ∧
      ∃ window ∈ windows, active window = true ∧ occurrence = window.occurrence midnight)
    (hremaining : ∀ window, active window = true →
      remaining window = (window.occurrence midnight).finish - now.currentMinutes)
    (hpositive : ∀ window, active window = true → 0 < remaining window) :
    LoopExact occurs now
      (if enabled then openFor (windows.filter active) remaining else none) := by
  have hwindows : ∀ window ∈ windows.filter active, active window = true := fun window hmem =>
    (List.mem_filter.mp hmem).2
  constructor
  · by_cases henabled : enabled = true
    · rw [if_pos henabled, openFor_eq_none, List.filter_eq_nil_iff]
      constructor
      · intro hnone occurrence hoccurrence
        rcases (hoccurs occurrence).mp hoccurrence with ⟨-, window, hmem, hactive, -⟩
        exact hnone window hmem hactive
      · intro hnone window hmem hactive
        exact hnone _ ((hoccurs _).mpr ⟨henabled, window, hmem, hactive, rfl⟩)
    · rw [if_neg henabled]
      refine ⟨fun _ occurrence hoccurrence => henabled ((hoccurs occurrence).mp hoccurrence).1,
        fun _ => rfl⟩
  · intro minutes hfound
    split_ifs at hfound with henabled
    have hgreatest := openFor_isGreatest
      (fun window hmem => hpositive window (hwindows window hmem)) hfound
    constructor
    · rcases hgreatest.1 with ⟨window, hmem, rfl⟩
      have hactive := hwindows window hmem
      exact ⟨_, (hoccurs _).mpr ⟨henabled, window, (List.mem_filter.mp hmem).1, hactive, rfl⟩,
        hremaining window hactive⟩
    · rintro minutes ⟨occurrence, hoccurrence, rfl⟩
      rcases (hoccurs occurrence).mp hoccurrence with ⟨-, window, hmem, hactive, rfl⟩
      exact hgreatest.2 ⟨window, List.mem_filter.mpr ⟨hmem, hactive⟩,
        (hremaining window hactive).symm⟩

/-- The loop over today's windows. -/
def todayMinutes (schedule : ScheduleConfig) (now : LocalTime) : Option ℚ :=
  let currentMinutes := now.currentMinutes
  let currentDay := schedule.days now.weekday
  if currentDay.enabled then
    openFor (currentDay.windows.filter (·.activeToday currentMinutes))
      fun window => windowMinutesRemaining currentMinutes window.finish
  else none

/-- The loop over yesterday's windows. -/
def overnightMinutes (schedule : ScheduleConfig) (now : LocalTime) : Option ℚ :=
  let currentMinutes := now.currentMinutes
  let yesterday := schedule.days (previousDay now.weekday)
  if yesterday.enabled then
    openFor (yesterday.windows.filter (·.activeFromYesterday currentMinutes))
      fun window =>
        if currentMinutes = 0 then minutesSinceMidnight window.finish
        else minutesSinceMidnight window.finish - currentMinutes
  else none

theorem openMinutes_eq (schedule : ScheduleConfig) (now : LocalTime) :
    openMinutes schedule now =
      (todayMinutes schedule now).orElse fun _ => overnightMinutes schedule now := rfl

theorem todayMinutes_exact (schedule : ScheduleConfig) (now : LocalTime) :
    LoopExact (Current OccursToday schedule now) now (todayMinutes schedule now) := by
  have hactive : ∀ window : ScheduleWindow, window.activeToday now.currentMinutes = true ↔
      (window.occurrence 0).Contains now.currentMinutes := fun window =>
    activeToday_iff now.currentMinutes_lt
  apply @loopExact _ _ _ _ _ _ 0
  · intro occurrence
    constructor
    · rintro ⟨⟨henabled, window, hmem, rfl⟩, hcontains⟩
      exact ⟨henabled, window, hmem, (hactive window).mpr hcontains, rfl⟩
    · rintro ⟨henabled, window, hmem, hcontains, rfl⟩
      exact ⟨⟨henabled, window, hmem, rfl⟩, (hactive window).mp hcontains⟩
  · exact fun window hwindow => minutesRemaining_today hwindow
  · intro window hwindow
    have hlt := ((hactive window).mp hwindow).2
    rw [minutesRemaining_today hwindow]
    linarith

theorem overnightMinutes_exact (schedule : ScheduleConfig) (now : LocalTime) :
    LoopExact (Current OccursOvernight schedule now) now (overnightMinutes schedule now) := by
  have hactive : ∀ window : ScheduleWindow,
      window.activeFromYesterday now.currentMinutes = true ↔ window.overnight = true ∧
        (window.occurrence (-dayMinutes)).Contains now.currentMinutes := fun window =>
    activeFromYesterday_iff now.currentMinutes_nonneg
  have hremaining : ∀ window : ScheduleWindow,
      window.activeFromYesterday now.currentMinutes = true →
      (if now.currentMinutes = 0 then minutesSinceMidnight window.finish
        else minutesSinceMidnight window.finish - now.currentMinutes) =
        (window.occurrence (-dayMinutes)).finish - now.currentMinutes := by
    intro window hwindow
    have hle := of_decide_eq_true ((hactive window).mp hwindow).1
    unfold ScheduleWindow.occurrence
    simp only [hle, if_true]
    split_ifs with hzero
    · rw [hzero]
      ring
    · ring
  apply @loopExact _ _ _ _ _ _ (-dayMinutes)
  · intro occurrence
    constructor
    · rintro ⟨⟨henabled, window, hmem, hovernight, rfl⟩, hcontains⟩
      exact ⟨henabled, window, hmem, (hactive window).mpr ⟨hovernight, hcontains⟩, rfl⟩
    · rintro ⟨henabled, window, hmem, hwindow, rfl⟩
      rcases (hactive window).mp hwindow with ⟨hovernight, hcontains⟩
      exact ⟨⟨henabled, window, hmem, hovernight, rfl⟩, hcontains⟩
  · exact hremaining
  · intro window hwindow
    have hlt := ((hactive window).mp hwindow).2.2
    rw [hremaining window hwindow]
    linarith

/-! ## Both loops -/

theorem exists_of_some {occurs : Occurrence → Prop} {now : LocalTime} {found : Option ℚ}
    {minutes : ℚ} (hloop : LoopExact occurs now found) (hfound : found = some minutes) :
    ∃ occurrence, occurs occurrence := by
  by_contra hnone
  have := hloop.none.mpr fun occurrence hoccurrence => hnone ⟨occurrence, hoccurrence⟩
  rw [hfound] at this
  cases this

/-- Something is open exactly when an occurrence contains the time. -/
theorem openMinutes_isSome_iff (schedule : ScheduleConfig) (now : LocalTime) :
    (openMinutes schedule now).isSome = true ↔
      ∃ occurrence, CurrentOccurrence schedule now occurrence := by
  have htoday := todayMinutes_exact schedule now
  have hovernight := overnightMinutes_exact schedule now
  rw [openMinutes_eq]
  cases htodayFound : todayMinutes schedule now with
  | some minutes =>
      rcases exists_of_some htoday htodayFound with ⟨occurrence, hoccurrence⟩
      exact ⟨fun _ => ⟨occurrence, .inl hoccurrence⟩, fun _ => rfl⟩
  | none =>
      have hnone := htoday.none.mp htodayFound
      cases hovernightFound : overnightMinutes schedule now with
      | some minutes =>
          rcases exists_of_some hovernight hovernightFound with ⟨occurrence, hoccurrence⟩
          exact ⟨fun _ => ⟨occurrence, .inr hoccurrence⟩, fun _ => rfl⟩
      | none =>
          constructor
          · intro hsome
            cases hsome
          · rintro ⟨occurrence, htodayOccurs | hovernightOccurs⟩
            · exact absurd htodayOccurs (hnone occurrence)
            · exact absurd hovernightOccurs (hovernight.none.mp hovernightFound occurrence)

/-- The minutes found are those to the last end exactly when no overnight window outlasts
the windows of today. -/
theorem openMinutes_isGreatest_iff {schedule : ScheduleConfig} {now : LocalTime} {minutes : ℚ}
    (hfound : openMinutes schedule now = some minutes) :
    IsGreatest (minutesToEnd now (CurrentOccurrence schedule now)) minutes ↔
      NoLongerOvernight schedule now := by
  have htoday := todayMinutes_exact schedule now
  have hovernight := overnightMinutes_exact schedule now
  rw [openMinutes_eq] at hfound
  cases htodayFound : todayMinutes schedule now with
  | none =>
      have hnone := htoday.none.mp htodayFound
      rw [htodayFound] at hfound
      have hgreatest := hovernight.some minutes hfound
      -- No window of today is open, so no overnight one is passed over.
      have hlonger : NoLongerOvernight schedule now := fun ⟨today, hcurrent⟩ =>
        absurd hcurrent (hnone today)
      refine iff_of_true ⟨?_, ?_⟩ hlonger
      · rcases hgreatest.1 with ⟨occurrence, hoccurrence, hminutes⟩
        exact ⟨occurrence, .inr hoccurrence, hminutes⟩
      · rintro _ ⟨occurrence, hcurrent | hcurrent, rfl⟩
        · exact absurd hcurrent (hnone occurrence)
        · exact hgreatest.2 ⟨occurrence, hcurrent, rfl⟩
  | some found =>
      rw [htodayFound] at hfound
      rcases Option.some.inj hfound with rfl
      -- The windows of today decide alone.
      have hgreatest := htoday.some found htodayFound
      rcases hgreatest.1 with ⟨latest, hlatest, hminutes⟩
      constructor
      · intro hall _ overnight hcurrent
        have hle := hall.2 ⟨overnight, .inr hcurrent, rfl⟩
        exact ⟨latest, hlatest, by linarith⟩
      · intro hlonger
        refine ⟨⟨latest, .inl hlatest, hminutes⟩, ?_⟩
        rintro _ ⟨occurrence, hcurrent | hcurrent, rfl⟩
        · exact hgreatest.2 ⟨occurrence, hcurrent, rfl⟩
        · rcases hlonger ⟨latest, hlatest⟩ occurrence hcurrent with ⟨today, htodayCurrent, hle⟩
          have hbound := hgreatest.2 ⟨today, htodayCurrent, rfl⟩
          linarith

/-- What an enabled schedule answers of the minutes found. -/
theorem operatingHoursFor_enabled {schedule : ScheduleConfig} (henabled : schedule.enabled = true)
    (operation : OperationType) (now : LocalTime) :
    (operatingHoursFor schedule operation now).isOpen = (openMinutes schedule now).isSome ∧
      ∀ minutes, openMinutes schedule now = some minutes →
        (operatingHoursFor schedule operation now).minutesRemaining = (minutes : Minutes) := by
  unfold operatingHoursFor
  rw [if_neg (by simp [henabled])]
  cases openMinutes schedule now with
  | none => exact ⟨rfl, fun _ hfound => by cases hfound⟩
  | some found =>
      constructor
      · dsimp only
        split_ifs <;> rfl
      · intro minutes hfound
        rcases Option.some.inj hfound with rfl
        dsimp only
        split_ifs <;> rfl

theorem operatingHours_exact_iff (schedule : ScheduleConfig) (henabled : schedule.enabled = true)
    (operation : OperationType) (now : LocalTime) :
    HoursExact schedule now (operatingHoursFor schedule operation now) ↔
      NoLongerOvernight schedule now := by
  rcases operatingHoursFor_enabled henabled operation now with ⟨hisOpen, hremaining⟩
  have hopen := openMinutes_isSome_iff schedule now
  constructor
  · intro hexact hcurrent
    rcases hcurrent with ⟨today, htoday⟩
    have hsome := hopen.mpr ⟨today, .inl htoday⟩
    rcases Option.isSome_iff_exists.mp hsome with ⟨found, hfound⟩
    rcases hexact.remaining (hisOpen.trans hsome) with ⟨minutes, hminutes, hgreatest⟩
    have heq : (found : Minutes) = minutes := (hremaining found hfound).symm.trans hminutes
    rw [← WithTop.coe_inj.mp heq] at hgreatest
    exact (openMinutes_isGreatest_iff hfound).mp hgreatest ⟨today, htoday⟩
  · intro hlonger
    constructor
    · rw [hisOpen]
      exact hopen
    · intro htrue
      rcases Option.isSome_iff_exists.mp (hisOpen.symm.trans htrue) with ⟨found, hfound⟩
      exact ⟨found, hremaining found hfound, (openMinutes_isGreatest_iff hfound).mpr hlonger⟩

/-- Monday 22:00 to 08:00 and Tuesday 05:00 to 06:00. -/
def overlappingSchedule : ScheduleConfig where
  days := fun weekday => match weekday with
    | 0 => ⟨true, [⟨⟨22, 0⟩, ⟨8, 0⟩⟩]⟩
    | 1 => ⟨true, [⟨⟨5, 0⟩, ⟨6, 0⟩⟩]⟩
    | _ => {}

/-- On Tuesday at 05:30 the answer is 30 minutes, to the end of Tuesday's window, while
Monday's runs for another 150. -/
theorem operatingHours_stop_at_today :
    ¬ HoursExact overlappingSchedule ⟨1, 5, 30, 0⟩
      (operatingHoursFor overlappingSchedule .implementation ⟨1, 5, 30, 0⟩) := by
  intro hexact
  have hfound : openMinutes overlappingSchedule ⟨1, 5, 30, 0⟩ = some 30 := by decide +kernel
  have henabled : overlappingSchedule.enabled = true := rfl
  rcases operatingHoursFor_enabled henabled .implementation ⟨1, 5, 30, 0⟩ with ⟨hopen, hminutes⟩
  have hremaining := hminutes 30 hfound
  rw [hfound] at hopen
  rcases hexact.remaining hopen with ⟨minutes, hanswer, hgreatest⟩
  rcases WithTop.coe_inj.mp (hremaining.symm.trans hanswer)
  have hmonday : Current OccursOvernight overlappingSchedule ⟨1, 5, 30, 0⟩
      (ScheduleWindow.occurrence ⟨⟨22, 0⟩, ⟨8, 0⟩⟩ (-dayMinutes)) := by
    refine ⟨⟨rfl, _, List.mem_cons_self, by decide +kernel, rfl⟩, ?_, ?_⟩ <;> decide +kernel
  have hle := hgreatest.2 ⟨_, .inr hmonday, rfl⟩
  exact absurd hle (by decide +kernel)

/-- At 06:30 only Monday's window runs. -/
theorem operatingHours_exact_iff_overnight :
    overlappingSchedule.enabled = true ∧ HoursExact overlappingSchedule ⟨1, 6, 30, 0⟩
      (operatingHoursFor overlappingSchedule .implementation ⟨1, 6, 30, 0⟩) := by
  refine ⟨rfl, (operatingHours_exact_iff overlappingSchedule rfl .implementation _).mpr ?_⟩
  rintro ⟨today, ⟨-, window, hmem, rfl⟩, hcontains⟩
  rcases List.mem_singleton.mp hmem with rfl
  exact absurd hcontains.2 (by decide +kernel)

end Orchestrator
