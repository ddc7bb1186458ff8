import CloudSpells.Spells.Autoscale
import Mathlib.Order.Lattice

/-!
# Spells/Scaling — how large a pool may grow

A `ScalableWorkload` starts its pool at `initial_instances` and lets a policy move it between
`min_instances` and `max_instances`.  None of the three is looked at: they go to the pool and to the
policies as they were passed, so what a policy says of them is consistent where they were
(`capacities_of_init`).  A `CHANGE_COUNT_TO` widens the bounds to hold what it asks for, and is
consistent whatever was passed.
-/

namespace CloudSpells

open Machinery Machinery.Exec

/-! ## Policies -/

/-- `ScalingMetric`. -/
inductive ScalingMetric
  | cpuUtilization
  | memoryUtilization
  deriving DecidableEq, Repr

/-- `ScalingMetric.value`. -/
def ScalingMetric.value : ScalingMetric → String
  | cpuUtilization => "CPU_UTILIZATION"
  | memoryUtilization => "MEMORY_UTILIZATION"

/-- `ScalingAction`. -/
inductive ScalingAction
  | changeCountBy
  | changeCountTo
  deriving DecidableEq, Repr

/-- `MetricScalingPolicy`. -/
structure MetricScalingPolicy where
  scaleOutThreshold : ℤ := 80
  scaleInThreshold : ℤ := 20
  scaleOutValue : ℤ := 1
  scaleInValue : ℤ := -1
  cooldownInSeconds : ℤ := 300
  metric : ScalingMetric := .cpuUtilization
  deriving DecidableEq, Repr

/-- `ScheduleEntry`. -/
structure ScheduleEntry where
  cronExpression : String
  action : ScalingAction
  value : ℤ
  displayName : String
  deriving DecidableEq, Repr

/-- `MetricScalingPolicy | ScheduleScalingPolicy`. -/
inductive ScalingPolicy
  | metric (policy : MetricScalingPolicy)
  | schedule (schedules : List ScheduleEntry)
  deriving DecidableEq, Repr

/-- The arguments of `ScalableWorkload(…)` that concern its size.  A policy that is not given is the
default one; one that is given may be `None`. -/
structure ScalingArgs extends ScalableWorkloadArgs where
  minInstances : ℤ := 1
  maxInstances : ℤ := 5
  initialInstances : Option ℤ := none
  scalingPolicy : Option ScalingPolicy := some (.metric {})
  deriving DecidableEq, Repr

/-! ## Autoscaling configurations -/

/-- `AutoScalingConfigurationPolicyCapacityArgs`. -/
structure Capacity where
  initial : ℤ
  max : ℤ
  min : ℤ
  deriving DecidableEq, Repr

/-- The policy starts within its own bounds. -/
def Capacity.Consistent (c : Capacity) : Prop := c.min ≤ c.initial ∧ c.initial ≤ c.max

instance : DecidablePred Capacity.Consistent := fun c =>
  inferInstanceAs (Decidable (c.min ≤ c.initial ∧ c.initial ≤ c.max))

/-- A rule of a threshold policy: its action is always `CHANGE_COUNT_BY`. -/
structure ThresholdRule where
  displayName : String
  value : ℤ
  metricType : String
  operator : String
  threshold : ℤ
  deriving DecidableEq, Repr

/-- `AutoScalingConfigurationPolicyArgs`; a scheduled policy has a cron expression and no rules. -/
structure AutoScalingPolicy where
  displayName : String
  policyType : String
  capacity : Capacity
  rules : List ThresholdRule := []
  executionSchedule : Option String := none
  deriving DecidableEq, Repr

/-- `oci.autoscaling.AutoScalingConfiguration`. -/
structure AutoScalingConfiguration where
  resource : Resource
  instancePool : Resource
  coolDownInSeconds : Option ℤ := none
  policies : List AutoScalingPolicy
  deriving DecidableEq, Repr

namespace ScalingArgs

variable (args : ScalingArgs)

/-- `self.initial_instances`. -/
def initial : ℤ := args.initialInstances.getD args.minInstances

/-- The capacity of a metric policy. -/
def metricCapacity : Capacity where
  initial := args.initial
  max := args.maxInstances
  min := args.minInstances

/-- The capacity of a scheduled policy. -/
def scheduleCapacity (entry : ScheduleEntry) : Capacity :=
  match entry.action with
  | .changeCountTo =>
    { initial := entry.value
      max := max entry.value args.maxInstances
      min := min entry.value args.minInstances }
  | .changeCountBy =>
    { initial := max args.minInstances (min args.maxInstances (args.initial + entry.value))
      max := args.maxInstances
      min := args.minInstances }

/-- The policy of `_create_metric_autoscaling`. -/
def metricPolicy (ascName : String) (policy : MetricScalingPolicy) : AutoScalingPolicy where
  displayName := s!"{ascName}-policy"
  policyType := "threshold"
  capacity := args.metricCapacity
  rules :=
    [{ displayName := "Scale Out", value := policy.scaleOutValue, metricType := policy.metric.value,
       operator := "GT", threshold := policy.scaleOutThreshold },
     { displayName := "Scale In", value := policy.scaleInValue, metricType := policy.metric.value,
       operator := "LT", threshold := policy.scaleInThreshold }]

/-- One of the policies of `_create_schedule_autoscaling`. -/
def schedulePolicy (entry : ScheduleEntry) : AutoScalingPolicy where
  displayName := entry.displayName
  policyType := "scheduled"
  capacity := args.scheduleCapacity entry
  executionSchedule := some entry.cronExpression

/-- `_create_autoscaling_configuration`. -/
def createAutoscalingConfiguration (namer : ResourceNamer) (instancePool : Resource) :
    Option AutoScalingConfiguration :=
  let resource := ScalableWorkload.child namer .autoScalingConfiguration "asc"
  match args.scalingPolicy with
  | none => none
  | some (.metric policy) => some {
      resource := resource
      instancePool := instancePool
      coolDownInSeconds := some policy.cooldownInSeconds
      policies := [args.metricPolicy resource.name policy] }
  | some (.schedule schedules) => some {
      resource := resource
      instancePool := instancePool
      policies := schedules.map args.schedulePolicy }

end ScalingArgs

/-- A `ScalableWorkload`, with the size of its pool and its autoscaling configuration. -/
structure ScaledWorkload extends ScalableWorkload where
  size : ℤ
  autoscalingConfiguration : Option AutoScalingConfiguration
  deriving DecidableEq, Repr

/-- `ScalableWorkload(…)`, the size of its pool and its autoscaling configuration included. -/
def ScaledWorkload.init (args : ScalingArgs) : Py Vcn ScaledWorkload := do
  let workload ← ScalableWorkload.init args.toScalableWorkloadArgs
  pure {
    toScalableWorkload := workload
    size := args.initial
    autoscalingConfiguration :=
      args.createAutoscalingConfiguration workload.namer workload.instancePool }

/-! ## What the capacities say -/

/-- `n` instances are within the bounds that were passed. -/
def ScalingArgs.Admits (args : ScalingArgs) (n : ℤ) : Prop :=
  args.minInstances ≤ n ∧ n ≤ args.maxInstances

instance (args : ScalingArgs) (n : ℤ) : Decidable (args.Admits n) :=
  inferInstanceAs (Decidable (_ ∧ _))

/-- A clamp lands between its bounds exactly where there is something between them. -/
theorem clamp_iff {α : Type} [LinearOrder α] {lo hi x : α} :
    lo ≤ max lo (min hi x) ∧ max lo (min hi x) ≤ hi ↔ lo ≤ hi := by
  constructor
  · rintro ⟨hlo, hhi⟩
    exact hlo.trans hhi
  · intro h
    exact ⟨le_max_left _ _, max_le h (min_le_left _ _)⟩

namespace ScalingArgs

variable {args : ScalingArgs} {entry : ScheduleEntry}

/-- What is asked for in absolute terms is granted, and the bounds give way. -/
theorem scheduleCapacity_of_changeCountTo (h : entry.action = .changeCountTo) :
    (args.scheduleCapacity entry).initial = entry.value ∧
      (args.scheduleCapacity entry).Consistent ∧
      (args.scheduleCapacity entry).min ≤ args.minInstances ∧
      args.maxInstances ≤ (args.scheduleCapacity entry).max := by
  rw [scheduleCapacity, h]
  exact ⟨rfl, ⟨min_le_left _ _, le_max_left _ _⟩, min_le_right _ _, le_max_right _ _⟩

/-- What is asked for in relative terms is clamped, and the bounds stay. -/
theorem scheduleCapacity_of_changeCountBy (h : entry.action = .changeCountBy) :
    (args.Admits (args.scheduleCapacity entry).initial ↔ args.minInstances ≤ args.maxInstances) ∧
      ((args.scheduleCapacity entry).Consistent ↔ args.minInstances ≤ args.maxInstances) := by
  rw [scheduleCapacity, h]
  exact ⟨clamp_iff, clamp_iff⟩

end ScalingArgs

/-- **Capacities are as consistent as what was passed.**  The pool starts within the bounds, and a
metric policy within its own, exactly where `initial_instances` lies between `min_instances` and
`max_instances`; a relative entry of a schedule does exactly where these two are in order; and an
absolute entry always does, its bounds holding those of the workload too. -/
theorem capacities_of_init {args : ScalingArgs} {v v' : Vcn} {w : ScaledWorkload}
    (h : (ScaledWorkload.init args).run v = (.ok w, v')) :
    w.size = args.initial ∧
    (∀ policy, args.scalingPolicy = some (.metric policy) →
      ∃ c p, w.autoscalingConfiguration = some c ∧ c.policies = [p] ∧
        (p.capacity.Consistent ↔ args.Admits args.initial)) ∧
    ∀ schedules, args.scalingPolicy = some (.schedule schedules) →
      ∃ c, w.autoscalingConfiguration = some c ∧ List.Forall₂ (fun entry p =>
        (entry.action = .changeCountTo →
          p.capacity.initial = entry.value ∧ p.capacity.Consistent ∧
          p.capacity.min ≤ args.minInstances ∧ args.maxInstances ≤ p.capacity.max) ∧
        (entry.action = .changeCountBy →
          (args.Admits p.capacity.initial ↔ args.minInstances ≤ args.maxInstances) ∧
          (p.capacity.Consistent ↔ args.minInstances ≤ args.maxInstances)))
        schedules c.policies := by
  obtain ⟨workload, v₁, -, hpure⟩ := run_bind_eq_ok.mp h
  obtain ⟨hw, -⟩ := Prod.mk.inj hpure
  obtain rfl := Except.ok.inj hw
  refine ⟨rfl, fun policy hpolicy => ?_, fun schedules hschedules => ?_⟩
  · simp only [ScalingArgs.createAutoscalingConfiguration, hpolicy]
    exact ⟨_, _, rfl, rfl, Iff.rfl⟩
  · simp only [ScalingArgs.createAutoscalingConfiguration, hschedules]
    refine ⟨_, rfl, List.forall₂_map_right_iff.mpr (List.forall₂_same.mpr fun entry _ => ?_)⟩
    exact ⟨ScalingArgs.scheduleCapacity_of_changeCountTo,
      ScalingArgs.scheduleCapacity_of_changeCountBy⟩

/-- Business hours, on a pool of two to ten. -/
def businessArgs : ScalingArgs where
  name := "web"
  stackName := "dev"
  minInstances := 2
  maxInstances := 10
  scalingPolicy := some (.schedule
    [{ cronExpression := "0 0 8 ? * MON-FRI *", action := .changeCountTo, value := 12,
       displayName := "Scale up business hours" },
     { cronExpression := "0 0 20 ? * MON-FRI *", action := .changeCountBy, value := -4,
       displayName := "Scale down after hours" }])

/-- The pool starts with two; the mornings ask for twelve, and get a bound of twelve. -/
theorem capacities_of_init_business : ∃ w v' c p q,
    (ScaledWorkload.init businessArgs).run defaultBase.fresh = (.ok w, v') ∧ w.size = 2 ∧
      w.autoscalingConfiguration = some c ∧ c.policies = [p, q] ∧ p.capacity.initial = 12 ∧
      p.capacity.Consistent ∧ q.capacity.Consistent := by
  have hrun : (ScaledWorkload.init businessArgs).run defaultBase.fresh =
      (.ok _, (ScaledWorkload.init businessArgs).after defaultBase.fresh) := rfl
  obtain ⟨hsize, -, hschedule⟩ := capacities_of_init hrun
  obtain ⟨c, hc, hall⟩ := hschedule _ rfl
  obtain ⟨p, ps, hp, hps, hpolicies⟩ := List.forall₂_cons_left_iff.mp hall
  obtain ⟨q, qs, hq, hqs, rfl⟩ := List.forall₂_cons_left_iff.mp hps
  obtain rfl := List.forall₂_nil_left_iff.mp hqs
  exact ⟨_, _, c, p, q, hrun, hsize, hc, hpolicies, (hp.1 rfl).1, (hp.1 rfl).2.1,
    (hq.2 rfl).2.mpr (by decide)⟩

/-- Ten instances to start with, of five at most. -/
def crowdedArgs : ScalingArgs where
  name := "web"
  stackName := "dev"
  initialInstances := some 10

/-- A workload of ten instances, of five at most, is constructed: its pool and its policy start
with ten. -/
theorem not_consistent_crowded : ∃ w v' c p,
    (ScaledWorkload.init crowdedArgs).run defaultBase.fresh = (.ok w, v') ∧
      ¬ crowdedArgs.Admits w.size ∧
      w.autoscalingConfiguration = some c ∧ p ∈ c.policies ∧ ¬ p.capacity.Consistent :=
  ⟨_, _, _, _, rfl, by decide, rfl, List.mem_singleton_self _, by decide⟩

end CloudSpells
