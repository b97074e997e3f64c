import Plimsoll.Jmx.Variables
import Mathlib.Data.Prod.Lex

/-!
Whether the summary of a plan depends on the order in which a process visits sets.

The names are sorted by themselves and do not. The targets are sorted by host and port
alone, so two that differ in their scheme, or in a missing port and port zero, stand in the
order in which the set gave them.
-/

namespace Plimsoll

open Python Jmx

/-! ## Processes -/

/-- The same libraries in a process that visits sets in this order. -/
def Runtime.visiting (rt : Runtime) (sets : SetOrder) : Runtime := { rt with sets }

variable {rt : Runtime}

theorem fromstring_visiting (sets : SetOrder) (text : String) :
    (rt.visiting sets).fromstring text = rt.fromstring text := rfl

theorem addDefaults_visiting (sets : SetOrder) (scan : Scan) :
    addDefaults (rt.visiting sets) scan = addDefaults rt scan := rfl

theorem visit_visiting (sets : SetOrder) (scan : Scan) (element : Element) :
    visit (rt.visiting sets) scan element = visit rt scan element := rfl

theorem visitAll_visiting (sets : SetOrder) {elements : List Element} :
    ∀ scan : Scan, visitAll (rt.visiting sets) scan elements = visitAll rt scan elements := by
  induction elements with
  | nil => exact fun _ => rfl
  | cons element rest ih =>
      intro scan
      rw [visitAll, visitAll, visit_visiting]
      cases visit rt scan element with
      | error exc => rfl
      | ok next => exact ih next

/-- A text parses in every process or in none. -/
theorem parsePlan_visiting (rt : Runtime) (text : String) :
    (∃ exc, ∀ sets, parsePlan (rt.visiting sets) text = .error exc) ∨
      ∃ scan, ∀ sets, parsePlan (rt.visiting sets) text =
        .ok (summarize (rt.visiting sets) text scan) := by
  unfold parsePlan
  simp only [fromstring_visiting, visitAll_visiting, addDefaults_visiting]
  cases rt.fromstring text with
  | error message => exact Or.inl ⟨_, fun _ => rfl⟩
  | ok root =>
      dsimp only
      cases visitAll rt {} root.iter with
      | error exc => exact Or.inl ⟨_, fun _ => rfl⟩
      | ok scan =>
          dsimp only
          cases addDefaults rt scan with
          | error exc => exact Or.inl ⟨_, fun _ => rfl⟩
          | ok scan => exact Or.inr ⟨scan, fun _ => rfl⟩

namespace Jmx

/-! ## The targets of a document -/

/-- A target that a sampler reached from `start` contributes. -/
def SampledTarget (rt : Runtime) (start : Dict String String) (elements : List Element)
    (target : PlanTarget) : Prop :=
  ∃ defaults element, Reached start elements defaults element ∧ IsSampler element ∧
    setting domainProp "" (stringProps element) defaults ≠ "" ∧
    samplerTarget rt (stringProps element) defaults
      (setting domainProp "" (stringProps element) defaults) = .ok target

/-- A target that a document names: that of a sampler that has a host, with the defaults
in force where it stands, or that of the defaults in force at its end. -/
inductive Names (rt : Runtime) (elements : List Element) (target : PlanTarget) : Prop
  | sampled : SampledTarget rt Dict.empty elements target → Names rt elements target
  | final : domainOf (inForce elements) ≠ "" → target.host = domainOf (inForce elements) →
    target.scheme = (truthy ((inForce elements).get? protocolProp)).getD "http" →
    port rt (((inForce elements).get? portProp).getD "") = .ok target.port →
    Names rt elements target

theorem sampledTarget_cons {start : Dict String String} {first : Element} {rest : List Element}
    {target : PlanTarget} :
    SampledTarget rt start (first :: rest) target ↔
      (IsSampler first ∧ setting domainProp "" (stringProps first) start ≠ "" ∧
        samplerTarget rt (stringProps first) start
          (setting domainProp "" (stringProps first) start) = .ok target) ∨
        SampledTarget rt (override start first) rest target := by
  simp only [SampledTarget, reached_cons]
  constructor
  · rintro ⟨defaults, element, ⟨rfl, rfl⟩ | later, found⟩
    · exact Or.inl found
    · exact Or.inr ⟨defaults, element, later, found⟩
  · rintro (found | ⟨defaults, element, later, found⟩)
    · exact ⟨start, first, Or.inl ⟨rfl, rfl⟩, found⟩
    · exact ⟨defaults, element, Or.inr later, found⟩

/-- One round keeps the defaults up and adds the sampler's target. -/
theorem mem_targets_visit {scan next : Scan} {element : Element}
    (visited : visit rt scan element = .ok next) (target : PlanTarget) :
    target ∈ next.targets ↔ target ∈ scan.targets ∨
      (IsSampler element ∧ setting domainProp "" (stringProps element) scan.defaults ≠ "" ∧
        samplerTarget rt (stringProps element) scan.defaults
          (setting domainProp "" (stringProps element) scan.defaults) = .ok target) := by
  by_cases sampler : IsSampler element
  · rw [visit_of_sampler sampler] at visited
    split at visited
    · rename_i none
      cases visited
      simp [none]
    · rename_i named
      split at visited
      · cases visited
      · rename_i added found
        cases visited
        rw [found, List.mem_append, List.mem_singleton]
        simp [sampler, named, eq_comm]
  · obtain ⟨other, also, sameTargets, -⟩ := @visit_of_not_sampler rt scan element sampler
    obtain rfl : next = other := Except.ok.inj (visited.symm.trans also)
    simp [sameTargets, sampler]

/-- The loop adds the target of every sampler. -/
theorem mem_targets_visitAll {elements : List Element} {target : PlanTarget} :
    ∀ {scan last : Scan}, visitAll rt scan elements = .ok last →
      (target ∈ last.targets ↔
        target ∈ scan.targets ∨ SampledTarget rt scan.defaults elements target) := by
  induction elements with
  | nil =>
      rintro scan _ ⟨⟩
      refine (or_iff_left ?_).symm
      rintro ⟨_, _, ⟨front, back, shape, -⟩, -⟩
      simp at shape
  | cons first rest ih =>
      intro scan last looped
      rw [visitAll] at looped
      cases visited : visit rt scan first with
      | error exc =>
          rw [visited] at looped
          cases looped
      | ok next =>
          rw [visited] at looped
          have defaults := ((@visit_spec rt scan first).2 next visited).1
          rw [ih looped, mem_targets_visit visited, defaults, sampledTarget_cons, or_assoc]

/-- The loop and the step behind it collect the targets that the document names. -/
theorem mem_targets_iff {elements : List Element} {looped scan : Scan}
    (loop : visitAll rt {} elements = .ok looped) (added : addDefaults rt looped = .ok scan)
    (target : PlanTarget) : target ∈ scan.targets ↔ Names rt elements target := by
  have sampled : target ∈ looped.targets ↔ SampledTarget rt Dict.empty elements target := by
    rw [mem_targets_visitAll loop]
    exact or_iff_right List.not_mem_nil
  have defaults : looped.defaults = inForce elements :=
    ((@visitAll_spec rt elements {}).2 looped loop).1
  unfold addDefaults at added
  rw [defaults] at added
  by_cases none : domainOf (inForce elements) = ""
  · rw [truthy_eq_none_iff.mpr none] at added
    cases added
    rw [sampled]
    refine ⟨Names.sampled, fun names => ?_⟩
    cases names with
    | sampled found => exact found
    | final named => exact absurd none named
  · rw [truthy_eq_some_iff.mpr ⟨none, rfl⟩] at added
    cases read : port rt (((inForce elements).get? portProp).getD "") with
    | error exc =>
        rw [read] at added
        cases added
    | ok number =>
        rw [read] at added
        cases added
        rw [List.mem_append, List.mem_singleton, sampled]
        constructor
        · rintro (found | rfl)
          · exact .sampled found
          · exact .final none rfl rfl read
        · intro names
          cases names with
          | sampled found => exact Or.inl found
          | final _ host scheme readable =>
              right
              cases target
              cases host
              cases scheme
              cases Except.ok.inj (readable.symm.trans read)
              rfl

/-! ## The order of the targets -/

/-- What targets are sorted by. -/
def targetKey (target : PlanTarget) : String ×ₗ Nat := toLex (target.host, target.port.getD 0)

theorem targetLe_eq : targetLe = fun a b => decide (targetKey a ≤ targetKey b) := by
  funext a b
  rw [targetLe, Bool.eq_iff_iff]
  simp [targetKey, Prod.Lex.toLex_le_toLex]

/-- No two targets share their host and their port, a missing one being zero. -/
def Untied (targets : PlanTarget → Prop) : Prop :=
  ∀ a b, targets a → targets b → a.host = b.host → a.port.getD 0 = b.port.getD 0 → a = b

theorem untied_iff {targets : PlanTarget → Prop} :
    Untied targets ↔ ∀ a b, targets a → targets b → targetKey a = targetKey b → a = b := by
  have key (a b : PlanTarget) :
      targetKey a = targetKey b ↔ a.host = b.host ∧ a.port.getD 0 = b.port.getD 0 := by
    rw [targetKey, targetKey, toLex_inj, Prod.mk.injEq]
  simp only [Untied, key, and_imp]

/-- Every list of a summary is sorted and lists nothing twice. -/
structure Ordered (summary : PlanSummary) : Prop where
  threadGroups : summary.threadGroups.Pairwise (· < ·)
  transactionControllers : summary.transactionControllers.Pairwise (· < ·)
  timers : summary.timers.Pairwise (· < ·)
  variableNames : summary.variableNames.Pairwise (· < ·)
  dataFiles : summary.dataFiles.Pairwise (· < ·)
  targets : summary.targets.Pairwise fun a b => targetLe a b = true
  distinct : summary.targets.Nodup

theorem ordered_summarize (rt : Runtime) (text : String) (scan : Scan) :
    Ordered (summarize rt text scan) where
  threadGroups := pairwise_lt_sortedSet _ _
  transactionControllers := pairwise_lt_sortedSet _ _
  timers := pairwise_lt_sortedSet _ _
  variableNames := pairwise_lt_sortedSet _ _
  dataFiles := pairwise_lt_sortedSet _ _
  targets := by
    have sorted := pairwise_sortedBy targetKey (rt.sets.enumerate scan.targets)
    change (sortedBy targetLe (rt.sets.enumerate scan.targets)).Pairwise _
    rw [targetLe_eq]
    exact sorted.imp fun le => decide_eq_true le
  distinct := nodup_sortedBy (rt.sets.nodup_enumerate _)

/-- The summary of a document does not depend on how sets are visited: it is one list for
list in every process, ordered, and any document that names the same targets has the same
list of them. -/
structure Canonical (rt : Runtime) (text : String) (root : Element) : Prop where
  ordered : ∀ sets summary, parsePlan (rt.visiting sets) text = .ok summary → Ordered summary
  same : ∀ sets sets', parsePlan (rt.visiting sets) text = parsePlan (rt.visiting sets') text
  determined : ∀ sets sets' text' root' summary summary', rt.fromstring text' = .ok root' →
    (∀ target, Names rt root'.iter target ↔ Names rt root.iter target) →
    parsePlan (rt.visiting sets) text = .ok summary →
    parsePlan (rt.visiting sets') text' = .ok summary' → summary'.targets = summary.targets

/-- A process that parses a document collects what it names, and every other process
has its summary of the same. -/
theorem scan_of_parsePlan {text : String} {root : Element} {sets : SetOrder} {summary : PlanSummary}
    (wellFormed : rt.fromstring text = .ok root)
    (parsed : parsePlan (rt.visiting sets) text = .ok summary) :
    ∃ scan, (∀ target, target ∈ scan.targets ↔ Names rt root.iter target) ∧
      summary = summarize (rt.visiting sets) text scan ∧ ∀ sets',
        parsePlan (rt.visiting sets') text = .ok (summarize (rt.visiting sets') text scan) := by
  obtain ⟨other, looped, scan, read, loop, added, rfl⟩ := parsePlan_ok_iff.mp parsed
  obtain rfl : root = other := Except.ok.inj (wellFormed.symm.trans read)
  rw [visitAll_visiting] at loop
  refine ⟨scan, mem_targets_iff loop added, rfl, fun sets' => ?_⟩
  exact parsePlan_ok_iff.mpr
    ⟨root, looped, scan, read, (visitAll_visiting sets' _).trans loop, added, rfl⟩

/-- Untied targets have one sorted list, however they were collected and visited. -/
theorem sortedBy_targetLe_eq {sets sets' : SetOrder} {targets targets' : List PlanTarget}
    (untied : Untied (· ∈ targets)) (members : ∀ target, target ∈ targets' ↔ target ∈ targets) :
    sortedBy targetLe (sets'.enumerate targets') = sortedBy targetLe (sets.enumerate targets) := by
  have perm : (sets'.enumerate targets').Perm (sets.enumerate targets) := by
    refine (List.perm_ext_iff_of_nodup (sets'.nodup_enumerate _) (sets.nodup_enumerate _)).mpr ?_
    intro target
    rw [SetOrder.mem_enumerate, SetOrder.mem_enumerate, members]
  rw [targetLe_eq]
  refine sortedBy_eq_of_perm perm fun a left b right => untied_iff.mp untied a b ?_ ?_
  · exact (members a).mp (sets'.mem_enumerate.mp left)
  · exact (members b).mp (sets'.mem_enumerate.mp right)

/-- The summary of a plan is canonical exactly when no two of its targets share host and
port. -/
theorem canonical_iff {text : String} {root : Element} {summary : PlanSummary}
    (wellFormed : rt.fromstring text = .ok root) (parsed : parsePlan rt text = .ok summary) :
    Canonical rt text root ↔ Untied (Names rt root.iter) := by
  have here : parsePlan (rt.visiting rt.sets) text = .ok summary := parsed
  obtain ⟨scan, names, -, parses⟩ := scan_of_parsePlan wellFormed here
  have collected : Names rt root.iter = (· ∈ scan.targets) :=
    funext fun target => propext (names target).symm
  rw [collected]
  constructor
  · intro canonical
    rw [untied_iff]
    intro a b left right tied
    refine sortedBy_enumerate_iff.mp (fun sets sets' => ?_) a left b right tied
    have same := canonical.same sets sets'
    rw [parses, parses] at same
    have targets := congrArg PlanSummary.targets (Except.ok.inj same)
    change sortedBy targetLe _ = sortedBy targetLe _ at targets
    rw [targetLe_eq] at targets
    exact targets
  · intro untied
    refine ⟨?_, ?_, ?_⟩
    · intro sets summary parsed
      rw [parses] at parsed
      cases parsed
      exact ordered_summarize _ _ _
    · intro sets sets'
      rw [parses, parses]
      have names (names : List String) : sortedSet sets names = sortedSet sets' names :=
        (sortedSet_eq _ _).trans (sortedSet_eq _ _).symm
      have targets : sortedBy targetLe (sets.enumerate scan.targets) =
          sortedBy targetLe (sets'.enumerate scan.targets) :=
        sortedBy_targetLe_eq untied fun _ => Iff.rfl
      refine congrArg Except.ok ?_
      simp only [summarize, sortedNames, Runtime.visiting, names, targets]
    · intro sets sets' text' root' summary summary' read alike parsed parsed'
      rw [parses] at parsed
      cases parsed
      obtain ⟨scan', names', rfl, -⟩ := scan_of_parsePlan read parsed'
      refine sortedBy_targetLe_eq untied fun target => ?_
      rw [names', alike, names]

/-! ## Two samplers of one host -/

/-- A sampler with these properties. -/
def samplerElement (props : List (String × String)) : Element where
  tag := "HTTPSamplerProxy"
  attrib := Dict.ofList [("testclass", "HTTPSamplerProxy")]
  text := none
  children := props.map fun prop =>
    { tag := "stringProp", attrib := Dict.ofList [("name", prop.1)], text := some prop.2
      children := [], tail := none }
  tail := none

/-- Its markup. -/
def samplerMarkup (props : List (String × String)) : String :=
  "<HTTPSamplerProxy testclass=\"HTTPSamplerProxy\">" ++
    join "" (props.map fun prop =>
      "<stringProp name=\"" ++ prop.1 ++ "\">" ++ prop.2 ++ "</stringProp>") ++
    "</HTTPSamplerProxy>"

/-- A document with two samplers. -/
def pairText (first second : List (String × String)) : String :=
  "<hashTree>" ++ samplerMarkup first ++ samplerMarkup second ++ "</hashTree>"

def pairElement (first second : List (String × String)) : Element :=
  hashTree [samplerElement first, samplerElement second]

/-- The interpreter that reads it. -/
def pairReading (first second : List (String × String)) : Runtime :=
  reading (pairText first second) (pairElement first second)

/-- A host, the host with a port of its own, and the host in the other scheme. -/
def plainProps : List (String × String) := [(domainProp, "shop.test")]

def portProps : List (String × String) := [(domainProp, "shop.test"), (portProp, "8443")]

def secureProps : List (String × String) := [(domainProp, "shop.test"), (protocolProp, "https")]

theorem canonical_iff_ports :
    Canonical (pairReading plainProps portProps) (pairText plainProps portProps)
        (pairElement plainProps portProps) ↔
      Untied (Names (pairReading plainProps portProps) (pairElement plainProps portProps).iter) :=
  canonical_iff (reading_fromstring _ _)
    (parsePlan_ok_iff.mpr ⟨_, _, _, reading_fromstring _ _, rfl, rfl, rfl⟩)

/-- A host that is asked in both schemes has its targets in two orders. -/
theorem schemes_in_two_orders :
    (pairReading plainProps secureProps).fromstring (pairText plainProps secureProps) =
        .ok (pairElement plainProps secureProps) ∧
      (∃ summary, parsePlan (pairReading plainProps secureProps)
        (pairText plainProps secureProps) = .ok summary) ∧
      ¬ Canonical (pairReading plainProps secureProps) (pairText plainProps secureProps)
        (pairElement plainProps secureProps) := by
  have read : (pairReading plainProps secureProps).fromstring (pairText plainProps secureProps) =
      .ok (pairElement plainProps secureProps) := reading_fromstring _ _
  have listed : (parsePlan ((pairReading plainProps secureProps).visiting SetOrder.listed)
      (pairText plainProps secureProps)).toOption.map PlanSummary.targets =
        some [⟨"http", "shop.test", none⟩, ⟨"https", "shop.test", none⟩] := by
    rw [parsePlan, fromstring_visiting, read]
    decide +kernel
  have reversed : (parsePlan ((pairReading plainProps secureProps).visiting SetOrder.reversed)
      (pairText plainProps secureProps)).toOption.map PlanSummary.targets =
        some [⟨"https", "shop.test", none⟩, ⟨"http", "shop.test", none⟩] := by
    rw [parsePlan, fromstring_visiting, read]
    decide +kernel
  refine ⟨read, ?_, fun canonical => ?_⟩
  · obtain ⟨summary, returned, -⟩ := Option.map_eq_some_iff.mp listed
    exact ⟨summary, toOption_eq_some_iff.mp returned⟩
  · rw [canonical.same SetOrder.listed SetOrder.reversed, reversed] at listed
    exact absurd listed (by decide)

end Jmx

end Plimsoll
