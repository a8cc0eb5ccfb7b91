/-
# What counts as a regression

`compare_against_previous` divides the change of a metric by the previous value
and compares the quotient with the threshold.  Of a positive value that is the
share by which the metric moved.  A negative value turns the quotient around: a
move in the bad direction has the sign of an improvement, and the other way
round.  A growth rate is negative whenever what it measures shrinks.
-/

import StateBenchmarks.Metrics.Baseline
import Mathlib.Algebra.Order.AbsoluteValue.Basic

namespace StateBenchmarks.Metrics

open Python Control

/-- A dictionary of metrics; no name occurs twice. -/
structure MetricMap where
  entries : Dict Json
  nodup : (entries.map Prod.fst).Nodup

/-- The value of a metric, where there is one and it is a number. -/
def valueIn (entries : Dict Json) (key : String) : Option ℚ :=
  (Dict.get? entries key).bind Json.number?

namespace MetricMap

/-- The map with one metric changed. -/
def set (m : MetricMap) (key : String) (value : Json) : MetricMap where
  entries := Dict.set m.entries key value
  nodup := by
    rw [Dict.map_fst_set]
    split_ifs with hmem
    · exact m.nodup
    · rw [List.nodup_append]
      refine ⟨m.nodup, List.nodup_singleton key, fun name hname other hother => ?_⟩
      rw [List.mem_singleton.mp hother]
      rintro rfl
      exact hmem hname

theorem valueIn_set (m : MetricMap) (key : String) (value : Json) :
    valueIn (m.set key value).entries key = value.number? := by
  rw [valueIn, set, Dict.get?_set_self]
  rfl

end MetricMap

/-- The metric moved in its bad direction by more than the threshold. -/
def Degraded (higherIsBetter : List String) (threshold : ℚ) (key : String) (c p : ℚ) : Prop :=
  if key ∈ higherIsBetter then threshold * |p| < p - c else threshold * |p| < c - p

/-- A value further in the bad direction. -/
def Worse (higherIsBetter : List String) (key : String) (c c' : ℚ) : Prop :=
  if key ∈ higherIsBetter then c' ≤ c else c ≤ c'

/-- The test of the source, on the quotient. -/
def Flagged (higherIsBetter : List String) (threshold : ℚ) (key : String) (c p : ℚ) : Prop :=
  p ≠ 0 ∧
    if key ∈ higherIsBetter then (c - p) / p < -threshold else threshold < (c - p) / p

variable {higher : List String} {threshold : ℚ} {key : String} {c c' p : ℚ}

/-- Of a positive value the quotient measures the degradation. -/
theorem flagged_iff_of_pos (hp : 0 < p) :
    Flagged higher threshold key c p ↔ Degraded higher threshold key c p := by
  rw [Flagged, Degraded, abs_of_pos hp]
  split_ifs
  · rw [div_lt_iff₀ hp]
    exact ⟨fun h => by linarith [h.2], fun h => ⟨hp.ne', by linarith⟩⟩
  · rw [lt_div_iff₀ hp]
    exact ⟨fun h => h.2, fun h => ⟨hp.ne', h⟩⟩

/-- Of a negative value it measures the improvement. -/
theorem flagged_iff_of_neg (hp : p < 0) :
    Flagged higher threshold key c p ↔
      if key ∈ higher then threshold * |p| < c - p else threshold * |p| < p - c := by
  rw [Flagged, abs_of_neg hp]
  split_ifs
  · rw [div_lt_iff_of_neg hp]
    exact ⟨fun h => by linarith [h.2], fun h => ⟨hp.ne, by linarith⟩⟩
  · rw [lt_div_iff_of_neg hp]
    exact ⟨fun h => by linarith [h.2], fun h => ⟨hp.ne, by linarith⟩⟩

/-- Either way around a move is within the threshold, or the test and the
degradation disagree about it. -/
theorem flagged_iff_degraded_iff_of_neg (higher : List String) (key : String) (c : ℚ)
    (ht : 0 < threshold) (hp : p < 0) :
    (Flagged higher threshold key c p ↔ Degraded higher threshold key c p) ↔
      |c - p| ≤ threshold * |p| := by
  have hpos : 0 < threshold * |p| := mul_pos ht (abs_pos.mpr hp.ne)
  rw [flagged_iff_of_neg hp, Degraded, abs_le]
  generalize threshold * |p| = bound at hpos
  split_ifs
  · apply Iff.intro
    · intro h
      apply And.intro
      · by_contra hlt
        have hdegraded : bound < p - c := by linarith
        linarith [h.mpr hdegraded]
      · by_contra hlt
        have himproved : bound < c - p := by linarith
        linarith [h.mp himproved]
    · intro h
      exact iff_of_false (by linarith [h.2]) (by linarith [h.1])
  · apply Iff.intro
    · intro h
      apply And.intro
      · by_contra hlt
        have himproved : bound < p - c := by linarith
        linarith [h.mp himproved]
      · by_contra hlt
        have hdegraded : bound < c - p := by linarith
        linarith [h.mpr hdegraded]
    · intro h
      exact iff_of_false (by linarith [h.1]) (by linarith [h.2])

/-- What is worse than a degraded value is degraded. -/
theorem Degraded.worse (h : Degraded higher threshold key c p) (hworse : Worse higher key c c') :
    Degraded higher threshold key c' p := by
  unfold Degraded Worse at *
  split_ifs at * <;> linarith

/-- The comparison reports the metric. -/
def Reports (current : MetricMap) (prev : Candidate) (higher : List String) (threshold : ℚ)
    (key : String) : Prop :=
  ∃ regressions, compareAgainstPrevious current.entries prev higher threshold = .ok regressions ∧
    ∃ r ∈ regressions, r.metric = key

theorem get?_eq_none_of_any {fields : Dict Json} {key : String}
    (h : fields.any (·.1 == key) = false) : Dict.get? fields key = none := by
  apply List.lookup_eq_none_iff.mpr
  intro entry hentry
  have hne := List.any_eq_false.mp h entry hentry
  rw [bne_iff_ne]
  rintro rfl
  exact hne (beq_self_eq_true entry.1)

/-- Nothing is reported, and rightly so. -/
theorem exists_unreported (key : String) {P : Prop} (h : ¬ P) :
    ∃ result : Option Regression, (.ok none : Except Exn (Option Regression)) = .ok result ∧
      (∀ r, result = some r → r.metric = key) ∧ (result.isSome = true ↔ P) := by
  refine ⟨none, rfl, ?_, iff_of_false (by simp) h⟩
  intro r hr
  cases hr

/-- One metric: reported exactly when the test holds of its two values. -/
theorem compareMetric_spec (milestone : String) (fields : Dict Json) (higher : List String)
    (threshold : ℚ) (key : String) (current : Json) :
    ∃ result, compareMetric milestone (.obj fields) higher threshold key current = .ok result ∧
      (∀ r, result = some r → r.metric = key) ∧
      (result.isSome = true ↔ ∃ c p, current.number? = some c ∧ valueIn fields key = some p ∧
        Flagged higher threshold key c p) := by
  rw [compareMetric]
  cases hcontains : fields.any (·.1 == key) with
  | false =>
      rw [show Json.contains (.obj fields) key = .ok false by rw [Json.contains, hcontains]]
      apply exists_unreported
      rintro ⟨c, p, -, hp, -⟩
      rw [valueIn, get?_eq_none_of_any hcontains] at hp
      cases hp
  | true =>
      rw [show Json.contains (.obj fields) key = .ok true by rw [Json.contains, hcontains]]
      obtain ⟨previous, hitem⟩ := item_isOk_of_contains hcontains
      have hvalue : valueIn fields key = previous.number? := by
        cases hget : Dict.get? fields key with
        | none =>
            rw [Json.item, hget] at hitem
            cases hitem
        | some v =>
            rw [Json.item, hget] at hitem
            cases hitem
            rw [valueIn, hget]
            rfl
      simp only [hitem, bind, Except.bind, pure, Except.pure, if_pos, hvalue]
      cases hc : current.number? with
      | none => exact exists_unreported key (by simp)
      | some c =>
          cases hp : previous.number? with
          | none => exact exists_unreported key (by simp)
          | some p =>
              simp only [Option.some.injEq, exists_and_left, exists_eq_left', Flagged]
              by_cases hzero : p = 0
              · rw [if_pos hzero]
                exact exists_unreported key fun h => h.1 hzero
              · rw [if_neg hzero]
                split_ifs with hhigher hregressed hregressed
                · exact ⟨_, rfl, fun r hr => by cases hr; rfl, iff_of_true rfl ⟨hzero, hregressed⟩⟩
                · exact exists_unreported key fun h => hregressed h.2
                · exact ⟨_, rfl, fun r hr => by cases hr; rfl, iff_of_true rfl ⟨hzero, hregressed⟩⟩
                · exact exists_unreported key fun h => hregressed h.2

variable {current : MetricMap} {prev : Candidate} {fields : Dict Json}

/-- A comparison of two maps reports what comparing their metrics one by one
reports. -/
theorem compareAgainstPrevious_eq (current : MetricMap) (higher : List String) (threshold : ℚ)
    (hprev : prev.payload.getD "metrics" (.obj []) = .ok (.obj fields)) :
    ∃ compared, current.entries.mapM (fun x =>
        compareMetric prev.milestone (.obj fields) higher threshold x.1 x.2) = .ok compared ∧
      compareAgainstPrevious current.entries prev higher threshold =
        .ok compared.reduceOption := by
  obtain ⟨compared, hcompared⟩ : ∃ compared, current.entries.mapM (fun x =>
      compareMetric prev.milestone (.obj fields) higher threshold x.1 x.2) = .ok compared :=
    mapM_isOk_iff.mpr fun x _ => compareMetric_isOk
  refine ⟨compared, hcompared, ?_⟩
  rw [compareAgainstPrevious, hprev]
  simp only [bind, Except.bind, pure, Except.pure]
  split_ifs with hfalsy
  · -- Nothing is found in an empty map.
    obtain rfl : fields = [] := by simpa [Json.truthy] using hfalsy
    have hnil : compared.reduceOption = [] := by
      apply List.eq_nil_iff_forall_not_mem.mpr
      intro r hr
      obtain ⟨x, -, hx⟩ := mem_of_mapM hcompared (List.reduceOption_mem_iff.mp hr)
      cases hx
    rw [hnil]
  · rw [show current.entries.mapM _ = .ok compared from hcompared]

/-- A comparison of two maps reports the metrics whose two values pass the test. -/
theorem reports_iff (hprev : prev.payload.getD "metrics" (.obj []) = .ok (.obj fields)) :
    Reports current prev higher threshold key ↔ ∃ c p, valueIn current.entries key = some c ∧
      valueIn fields key = some p ∧ Flagged higher threshold key c p := by
  obtain ⟨compared, hcompared, heq⟩ :=
    compareAgainstPrevious_eq current higher threshold hprev
  have hvalue : ∀ {v : Json}, (key, v) ∈ current.entries →
      valueIn current.entries key = v.number? := fun hmem => by
    rw [valueIn, (Dict.get?_eq_some_iff current.nodup).mpr hmem]
    rfl
  apply Iff.intro
  · rintro ⟨regressions, hok, r, hr, hname⟩
    rw [heq] at hok
    cases hok
    obtain ⟨⟨name, v⟩, hmem, hmetric⟩ :=
      mem_of_mapM hcompared (List.reduceOption_mem_iff.mp hr)
    obtain ⟨result, hresult, hnamed, hflagged⟩ :=
      compareMetric_spec prev.milestone fields higher threshold name v
    cases hmetric.symm.trans hresult
    obtain rfl : name = key := (hnamed r rfl).symm.trans hname
    rw [hvalue hmem]
    exact hflagged.mp rfl
  · rintro ⟨c, p, hc, hp, hflagged⟩
    obtain ⟨v, hget, hv⟩ := Option.bind_eq_some_iff.mp hc
    have hmem := (Dict.get?_eq_some_iff current.nodup).mp hget
    obtain ⟨result, hin, hmetric⟩ := of_mem_mapM hcompared hmem
    obtain ⟨result', hresult, hnamed, hiff⟩ :=
      compareMetric_spec prev.milestone fields higher threshold key v
    cases hmetric.symm.trans hresult
    obtain ⟨r, hr⟩ := Option.isSome_iff_exists.mp (hiff.mpr ⟨c, p, hv, hp, hflagged⟩)
    rw [hr] at hin
    exact ⟨_, heq, r, List.reduceOption_mem_iff.mpr hin, hnamed r hr⟩

/-- The comparison returns, reports exactly the degraded metrics, and keeps
reporting a metric that gets worse. -/
structure ComparesExactly (current : MetricMap) (prev : Candidate) (fields : Dict Json)
    (higher : List String) (threshold : ℚ) : Prop where
  returns : ∃ regressions, compareAgainstPrevious current.entries prev higher threshold =
    .ok regressions
  exact : ∀ key, Reports current prev higher threshold key ↔ ∃ c p,
    valueIn current.entries key = some c ∧ valueIn fields key = some p ∧ p ≠ 0 ∧
      Degraded higher threshold key c p
  worsening : ∀ key c value c', valueIn current.entries key = some c → value.number? = some c' →
    Worse higher key c c' → Reports current prev higher threshold key →
      Reports (current.set key value) prev higher threshold key

/-- **The comparison is exact if and only if every metric with a negative
previous value stayed within the threshold of it.** -/
theorem comparesExactly_iff (current : MetricMap) {prev : Candidate} {fields : Dict Json}
    (hprev : prev.payload.getD "metrics" (.obj []) = .ok (.obj fields)) (higher : List String)
    {threshold : ℚ} (ht : 0 < threshold) :
    ComparesExactly current prev fields higher threshold ↔
      ∀ key c p, valueIn current.entries key = some c → valueIn fields key = some p → p < 0 →
        |c - p| ≤ threshold * |p| := by
  have hreports : ∀ {current : MetricMap} {key : String} {c p : ℚ},
      valueIn current.entries key = some c → valueIn fields key = some p →
      (Reports current prev higher threshold key ↔ Flagged higher threshold key c p) := by
    intro current key c p hc hp
    rw [reports_iff hprev, hc, hp]
    simp
  apply Iff.intro
  · intro h key c p hc hp hneg
    rw [← flagged_iff_degraded_iff_of_neg higher key c ht hneg,
      ← hreports hc hp, h.exact key, hc, hp]
    simp [hneg.ne]
  · intro h
    have hexact : ∀ {key c p}, valueIn current.entries key = some c →
        valueIn fields key = some p → p ≠ 0 →
        (Flagged higher threshold key c p ↔ Degraded higher threshold key c p) := by
      intro key c p hc hp hzero
      rcases lt_or_gt_of_ne hzero with hneg | hpos
      · exact (flagged_iff_degraded_iff_of_neg higher key c ht hneg).mpr (h key c p hc hp hneg)
      · exact flagged_iff_of_pos hpos
    refine ⟨?_, ?_, ?_⟩
    · obtain ⟨compared, -, heq⟩ := compareAgainstPrevious_eq current higher threshold hprev
      exact ⟨_, heq⟩
    · intro key
      rw [reports_iff hprev]
      apply exists_congr
      intro c
      apply exists_congr
      intro p
      apply and_congr_right
      intro hc
      apply and_congr_right
      intro hp
      exact ⟨fun hflagged => ⟨hflagged.1, (hexact hc hp hflagged.1).mp hflagged⟩,
        fun ⟨hzero, hdegraded⟩ => (hexact hc hp hzero).mpr hdegraded⟩
    · intro key c value c' hc hvalue hworse hreported
      obtain ⟨c₀, p, hc₀, hp, hflagged⟩ := (reports_iff hprev).mp hreported
      obtain rfl : c₀ = c := Option.some.inj (hc₀.symm.trans hc)
      have hdegraded := (hexact hc hp hflagged.1).mp hflagged
      have hpos : 0 < p := by
        rcases lt_or_gt_of_ne hflagged.1 with hneg | hpos
        · -- Within the threshold nothing is degraded.
          have hwithin := abs_le.mp (h key c₀ p hc hp hneg)
          unfold Degraded at hdegraded
          split_ifs at hdegraded
          · linarith [hwithin.1]
          · linarith [hwithin.2]
        · exact hpos
      rw [hreports ((current.valueIn_set key value).trans hvalue) hp, flagged_iff_of_pos hpos]
      exact hdegraded.worse hworse

/-- A map of the memory growth alone. -/
def growthOf (q : ℚ) : MetricMap :=
  ⟨[("rss_growth_bytes_per_sec", .float q)], List.nodup_singleton _⟩

/-- The previous run, with that map. -/
def previousGrowth (q : ℚ) : Candidate :=
  ⟨"v1", .str "2026-01-01T00:00:00+00:00", .obj [("metrics", .obj (growthOf q).entries)]⟩

theorem valueIn_growthOf {q : ℚ} {key : String} {c : ℚ} :
    valueIn (growthOf q).entries key = some c ↔ key = "rss_growth_bytes_per_sec" ∧ q = c := by
  rw [valueIn, growthOf, Dict.get?, List.lookup_cons]
  by_cases hkey : key = "rss_growth_bytes_per_sec"
  · simp [hkey, Json.number?]
  · rw [beq_eq_false_iff_ne.mpr hkey]
    simp [hkey]

/-- Memory that shrank by a hundred bytes per second and now grows by fifty is
not reported. -/
theorem growth_not_comparesExactly :
    ¬ ComparesExactly (growthOf 50) (previousGrowth (-100)) (growthOf (-100)).entries []
      (1 / 4) := by
  intro h
  have hreported := (h.exact "rss_growth_bytes_per_sec").mpr
    ⟨50, -100, valueIn_growthOf.mpr ⟨rfl, rfl⟩, valueIn_growthOf.mpr ⟨rfl, rfl⟩, by norm_num,
      by norm_num [Degraded]⟩
  obtain ⟨c, p, hc, hp, hflagged⟩ := (reports_iff rfl).mp hreported
  obtain ⟨-, rfl⟩ := valueIn_growthOf.mp hc
  obtain ⟨-, rfl⟩ := valueIn_growthOf.mp hp
  norm_num [Flagged] at hflagged

/-- Growth that was positive before is compared exactly. -/
theorem growth_comparesExactly :
    ComparesExactly (growthOf 130) (previousGrowth 100) (growthOf 100).entries [] (1 / 4) := by
  apply (comparesExactly_iff (growthOf 130) rfl [] (by norm_num)).mpr
  intro key c p _ hp hneg
  obtain ⟨-, rfl⟩ := valueIn_growthOf.mp hp
  norm_num at hneg

end StateBenchmarks.Metrics
