import Plimsoll.Jmx
import Mathlib.Data.List.Induction

/-!
Which hosts a plan summary reports.

The loop of `parse_plan` carries one defaults record and overwrites it at each
defaults element, so the domain of such an element survives only where a
sampler without a domain of its own follows before the next one, or where no
next one follows. `Kept` says so over the document; the run lemmas below
`Reached` show that this is what the loop does.
-/

namespace Plimsoll.Jmx

open Python

/-! ## Elements and their domains -/

/-- The domain a mapping of properties holds, empty when there is none. -/
def domainOf (props : Dict String String) : String := (props.get? domainProp).getD ""

/-- The domain `_string_props` reads of an element: its last one. -/
def ownDomain (element : Element) : String := domainOf (stringProps element)

def IsSampler (element : Element) : Prop := element.get "testclass" = "HTTPSamplerProxy"

instance (element : Element) : Decidable (IsSampler element) :=
  inferInstanceAs (Decidable (_ = _))

/-- An HTTP Request Defaults element that names a domain. -/
def IsDefaults (element : Element) : Prop :=
  element.get "testclass" = "ConfigTestElement" ∧ ownDomain element ≠ ""

instance (element : Element) : Decidable (IsDefaults element) :=
  inferInstanceAs (Decidable (_ ∧ _))

/-- A domain that a sampler or a defaults element holds in a property of its own. -/
def IsDomainValue (elements : List Element) (host : String) : Prop :=
  host ≠ "" ∧ ∃ element ∈ elements,
    (element.get "testclass" = "HTTPSamplerProxy" ∨
        element.get "testclass" = "ConfigTestElement") ∧
      ∃ prop ∈ element.findall "stringProp",
        prop.get "name" = domainProp ∧ strip (prop.text.getD "") = host

instance (elements : List Element) (host : String) : Decidable (IsDomainValue elements host) :=
  inferInstanceAs (Decidable (_ ∧ _))

theorem truthy_eq_none_iff {value : Option String} : truthy value = none ↔ value.getD "" = "" := by
  cases value with
  | none => simp [truthy]
  | some text => simp [truthy]

theorem truthy_eq_some_iff {value : Option String} {text : String} :
    truthy value = some text ↔ text ≠ "" ∧ value.getD "" = text := by
  cases value with
  | none =>
      simp only [truthy, Option.filter_none, Option.getD_none, reduceCtorEq, false_iff, not_and]
      exact fun nonempty empty => nonempty empty.symm
  | some other =>
      simp only [truthy, Option.filter_eq_some_iff, Option.some.injEq, decide_eq_true_eq,
        Option.getD_some]
      constructor
      · intro ⟨same, nonempty⟩
        exact ⟨nonempty, same⟩
      · intro ⟨nonempty, same⟩
        exact ⟨same, nonempty⟩

/-- A sampler's host is its own domain or else that of the defaults. -/
theorem setting_domain (props defaults : Dict String String) :
    setting domainProp "" props defaults =
      if domainOf props = "" then domainOf defaults else domainOf props := by
  unfold setting
  by_cases own : domainOf props = ""
  · rw [if_pos own, truthy_eq_none_iff.mpr own, Option.none_or]
    by_cases inherited : domainOf defaults = ""
    · rw [truthy_eq_none_iff.mpr inherited, inherited]
      rfl
    · rw [truthy_eq_some_iff.mpr ⟨inherited, rfl⟩]
      rfl
  · rw [if_neg own, truthy_eq_some_iff.mpr ⟨own, rfl⟩]
    rfl

/-- What `_string_props` reads is one of the values that stand there. -/
theorem isDomainValue_of_ownDomain {elements : List Element} {element : Element}
    (member : element ∈ elements)
    (relevant : element.get "testclass" = "HTTPSamplerProxy" ∨
      element.get "testclass" = "ConfigTestElement")
    (nonempty : ownDomain element ≠ "") : IsDomainValue elements (ownDomain element) := by
  refine ⟨nonempty, element, member, relevant, ?_⟩
  cases found : (stringProps element).get? domainProp with
  | none =>
      rw [ownDomain, domainOf, found] at nonempty
      exact (nonempty rfl).elim
  | some value =>
      have item := Dict.mem_of_get?_ofList found
      obtain ⟨prop, inProps, pair⟩ := List.mem_map.mp item
      obtain ⟨nameEq, valueEq⟩ := Prod.mk.inj pair
      refine ⟨prop, inProps, nameEq, ?_⟩
      rw [valueEq, ownDomain, domainOf, found, Option.getD_some]

/-! ## The defaults in force -/

/-- The defaults behind an element, of those in front of it. -/
def override (defaults : Dict String String) (element : Element) : Dict String String :=
  if IsDefaults element then stringProps element else defaults

/-- The defaults in force behind `elements`. -/
def inForce (elements : List Element) : Dict String String := elements.foldl override Dict.empty

theorem concat_inj {elements front back : List Element} {last d other : Element}
    (shape : elements ++ [last] = front ++ d :: (back ++ [other])) :
    elements = front ++ d :: back ∧ last = other := by
  rw [← List.cons_append, ← List.append_assoc] at shape
  obtain ⟨same, ends⟩ := List.append_inj' shape rfl
  exact ⟨same, List.singleton_inj.mp ends⟩

/-- The domain in force is that of the last defaults element. -/
theorem domainOf_inForce_iff {elements : List Element} {host : String} :
    (host ≠ "" ∧ domainOf (inForce elements) = host) ↔
      ∃ front d back, elements = front ++ d :: back ∧ IsDefaults d ∧ ownDomain d = host ∧
        ∀ element ∈ back, ¬ IsDefaults element := by
  induction elements using List.reverseRec with
  | nil =>
      constructor
      · intro ⟨nonempty, same⟩
        exact (nonempty same.symm).elim
      · intro ⟨front, d, back, shape, _⟩
        simp at shape
  | append_singleton elements last ih =>
      rw [inForce, List.foldl_concat, ← inForce, override]
      by_cases isDefaults : IsDefaults last
      · rw [if_pos isDefaults]
        constructor
        · intro ⟨_, same⟩
          exact ⟨elements, last, [], rfl, isDefaults, same, by simp⟩
        · intro ⟨front, d, back, shape, dDefaults, same, rest⟩
          cases back using List.reverseRecOn with
          | nil =>
              obtain ⟨rfl, rfl⟩ : elements = front ∧ last = d := by simpa using shape
              exact ⟨same ▸ dDefaults.2, same⟩
          | append_singleton back other =>
              obtain ⟨-, rfl⟩ := concat_inj shape
              exact (rest last (by simp) isDefaults).elim
      · rw [if_neg isDefaults, ih]
        constructor
        · intro ⟨front, d, back, shape, dDefaults, same, rest⟩
          refine ⟨front, d, back ++ [last], by simp [shape], dDefaults, same, ?_⟩
          intro element member
          rcases List.mem_append.mp member with early | here
          · exact rest element early
          · rw [List.mem_singleton.mp here]
            exact isDefaults
        · intro ⟨front, d, back, shape, dDefaults, same, rest⟩
          cases back using List.reverseRecOn with
          | nil =>
              obtain ⟨-, rfl⟩ : elements = front ∧ last = d := by simpa using shape
              exact (isDefaults dDefaults).elim
          | append_singleton back other =>
              obtain ⟨rfl, -⟩ := concat_inj shape
              exact ⟨front, d, back, rfl, dDefaults, same, fun element member =>
                rest element (List.mem_append_left _ member)⟩

/-! ## One round -/

variable {rt : Runtime}

theorem visit_of_not_sampler {scan : Scan} {element : Element} (other : ¬ IsSampler element) :
    ∃ next, visit rt scan element = .ok next ∧ next.targets = scan.targets ∧
      next.defaults = override scan.defaults element := by
  unfold visit
  rw [IsSampler] at other
  have notDefaults : element.get "testclass" ≠ "ConfigTestElement" →
      override scan.defaults element = scan.defaults := by
    intro differs
    rw [override, if_neg]
    exact fun isDefaults => differs isDefaults.1
  by_cases config : element.get "testclass" = "ConfigTestElement"
  · have notGroup : endsWith "ConfigTestElement" "ThreadGroup" = false := by decide
    have notTimer : endsWith "ConfigTestElement" "Timer" = false := by decide
    simp only [config, notGroup, notTimer, Bool.false_eq_true, if_false, String.reduceEq, if_true]
    by_cases named : ownDomain element = ""
    · have unset : truthy ((stringProps element).get? domainProp) = none :=
        truthy_eq_none_iff.mpr named
      refine ⟨scan, by simp [unset], rfl, ?_⟩
      rw [override, if_neg]
      exact fun isDefaults => isDefaults.2 named
    · have set : truthy ((stringProps element).get? domainProp) = some (ownDomain element) :=
        truthy_eq_some_iff.mpr ⟨named, rfl⟩
      refine ⟨{ scan with defaults := stringProps element }, by simp [set], rfl, ?_⟩
      rw [override, if_pos ⟨config, named⟩]
  · simp only [config, other, if_false]
    split_ifs
    · exact ⟨_, rfl, rfl, (notDefaults config).symm⟩
    · exact ⟨_, rfl, rfl, (notDefaults config).symm⟩
    · exact ⟨_, rfl, rfl, (notDefaults config).symm⟩
    · exact ⟨_, rfl, rfl, (notDefaults config).symm⟩
    · exact ⟨_, rfl, rfl, (notDefaults config).symm⟩
    · exact ⟨_, rfl, rfl, (notDefaults config).symm⟩

theorem not_isDefaults_of_sampler {element : Element} (sampler : IsSampler element) :
    ¬ IsDefaults element := by
  intro isDefaults
  have same := sampler.symm.trans isDefaults.1
  exact absurd same (by decide)

theorem visit_of_sampler {scan : Scan} {element : Element} (sampler : IsSampler element) :
    visit rt scan element =
      if setting domainProp "" (stringProps element) scan.defaults = "" then .ok scan
      else
        match samplerTarget rt (stringProps element) scan.defaults
            (setting domainProp "" (stringProps element) scan.defaults) with
        | .error exc => .error exc
        | .ok target => .ok { scan with targets := scan.targets ++ [target] } := by
  rw [IsSampler] at sampler
  unfold visit
  dsimp only
  rw [sampler]
  exact (if_neg (by decide)).trans <| (if_neg (by decide)).trans <| (if_neg (by decide)).trans <|
    (if_neg (by decide)).trans <| (if_neg (by decide)).trans <| if_pos rfl

/-- A port text `_port` does not raise on. -/
def ReadablePort (rt : Runtime) (value : String) : Prop :=
  rt.ucd.isDigitText value = true → (rt.ucd.int value).isSome = true

theorem port_ok_iff {value : String} :
    (∃ number, port rt value = .ok number) ↔ ReadablePort rt value := by
  unfold port ReadablePort
  by_cases digits : rt.ucd.isDigitText value = true
  · rw [if_pos digits]
    cases rt.ucd.int value with
    | none => simp [digits]
    | some number => simp
  · rw [if_neg digits]
    simp [digits]

/-- A sampler at hand, with the defaults then in force, adds its host when it
has one and raises when its port cannot be read. -/
theorem visit_sampler_ok_iff {scan next : Scan} {element : Element} (sampler : IsSampler element) :
    visit rt scan element = .ok next ↔
      (setting domainProp "" (stringProps element) scan.defaults = "" ∧ next = scan) ∨
        (setting domainProp "" (stringProps element) scan.defaults ≠ "" ∧
          ∃ number, port rt (setting portProp "" (stringProps element) scan.defaults) = .ok number ∧
            next = { scan with targets := scan.targets ++
              [{ scheme := setting protocolProp "http" (stringProps element) scan.defaults
                 host := setting domainProp "" (stringProps element) scan.defaults
                 port := number }] }) := by
  rw [visit_of_sampler sampler]
  by_cases none : setting domainProp "" (stringProps element) scan.defaults = ""
  · simp [none, eq_comm]
  · rw [if_neg none, samplerTarget]
    cases port rt (setting portProp "" (stringProps element) scan.defaults) with
    | error exc => simp [none]
    | ok number => simp [none, eq_comm]

/-! ## The whole loop -/

/-- `element` is reached with `defaults` in force, starting from `start`. -/
def Reached (start : Dict String String) (elements : List Element) (defaults : Dict String String)
    (element : Element) : Prop :=
  ∃ front back, elements = front ++ element :: back ∧ defaults = front.foldl override start

theorem reached_cons {start defaults : Dict String String} {first element : Element}
    {rest : List Element} :
    Reached start (first :: rest) defaults element ↔
      (defaults = start ∧ element = first) ∨ Reached (override start first) rest defaults element := by
  constructor
  · intro ⟨front, back, shape, same⟩
    cases front with
    | nil =>
        obtain ⟨rfl, rfl⟩ := List.cons.inj shape
        exact Or.inl ⟨same, rfl⟩
    | cons f front =>
        obtain ⟨rfl, behind⟩ := List.cons.inj shape
        exact Or.inr ⟨front, back, behind, same⟩
  · rintro (⟨rfl, rfl⟩ | ⟨front, back, rfl, rfl⟩)
    · exact ⟨[], rest, rfl, rfl⟩
    · exact ⟨first :: front, back, rfl, rfl⟩

/-- A host that some sampler reached from `start` contributes. -/
def Sampled (start : Dict String String) (elements : List Element) (host : String) : Prop :=
  ∃ defaults element, Reached start elements defaults element ∧ IsSampler element ∧ host ≠ "" ∧
    setting domainProp "" (stringProps element) defaults = host

/-- Every port a sampler reached from `start` contributes can be read. -/
def SampledPorts (rt : Runtime) (start : Dict String String) (elements : List Element) : Prop :=
  ∀ defaults element, Reached start elements defaults element → IsSampler element →
    setting domainProp "" (stringProps element) defaults ≠ "" →
      ReadablePort rt (setting portProp "" (stringProps element) defaults)

theorem sampled_cons {start : Dict String String} {first : Element} {rest : List Element}
    {host : String} :
    Sampled start (first :: rest) host ↔
      (IsSampler first ∧ host ≠ "" ∧ setting domainProp "" (stringProps first) start = host) ∨
        Sampled (override start first) rest host := by
  simp only [Sampled, reached_cons]
  constructor
  · rintro ⟨defaults, element, ⟨rfl, rfl⟩ | later, found⟩
    · exact Or.inl found
    · exact Or.inr ⟨defaults, element, later, found⟩
  · rintro (found | ⟨defaults, element, later, found⟩)
    · exact ⟨start, first, Or.inl ⟨rfl, rfl⟩, found⟩
    · exact ⟨defaults, element, Or.inr later, found⟩

theorem sampledPorts_cons {start : Dict String String} {first : Element} {rest : List Element} :
    SampledPorts rt start (first :: rest) ↔
      (IsSampler first → setting domainProp "" (stringProps first) start ≠ "" →
        ReadablePort rt (setting portProp "" (stringProps first) start)) ∧
        SampledPorts rt (override start first) rest := by
  simp only [SampledPorts, reached_cons]
  constructor
  · intro all
    exact ⟨all start first (Or.inl ⟨rfl, rfl⟩), fun defaults element later =>
      all defaults element (Or.inr later)⟩
  · rintro ⟨here, there⟩ defaults element (⟨rfl, rfl⟩ | later)
    · exact here
    · exact there defaults element later

/-- One round ends well exactly when its port can be read, and then it keeps
the defaults up and adds the sampler's host. -/
theorem visit_spec (scan : Scan) (element : Element) :
    ((∃ next, visit rt scan element = .ok next) ↔
        (IsSampler element → setting domainProp "" (stringProps element) scan.defaults ≠ "" →
          ReadablePort rt (setting portProp "" (stringProps element) scan.defaults))) ∧
      ∀ next, visit rt scan element = .ok next →
        next.defaults = override scan.defaults element ∧
          ∀ host, (∃ t ∈ next.targets, t.host = host) ↔
            (∃ t ∈ scan.targets, t.host = host) ∨
              (IsSampler element ∧ host ≠ "" ∧
                setting domainProp "" (stringProps element) scan.defaults = host) := by
  by_cases sampler : IsSampler element
  · have same : override scan.defaults element = scan.defaults :=
      if_neg (not_isDefaults_of_sampler sampler)
    simp only [visit_sampler_ok_iff sampler, same]
    constructor
    · rw [← port_ok_iff]
      by_cases none : setting domainProp "" (stringProps element) scan.defaults = ""
      · simp [none]
      · simp [none, sampler]
    · rintro next (⟨none, rfl⟩ | ⟨some, number, -, rfl⟩)
      · refine ⟨rfl, fun host => ?_⟩
        rw [none]
        constructor
        · exact Or.inl
        · rintro (old | ⟨-, nonempty, empty⟩)
          · exact old
          · exact (nonempty empty.symm).elim
      · refine ⟨rfl, fun host => ?_⟩
        simp only [List.mem_append, List.mem_singleton, or_and_right, exists_or, exists_eq_left]
        constructor
        · rintro (old | rfl)
          · exact Or.inl old
          · exact Or.inr ⟨sampler, some, rfl⟩
        · rintro (old | ⟨-, -, added⟩)
          · exact Or.inl old
          · exact Or.inr added
  · obtain ⟨next, visited, sameTargets, sameDefaults⟩ := @visit_of_not_sampler rt scan element sampler
    constructor
    · exact ⟨fun _ isSampler => (sampler isSampler).elim, fun _ => ⟨next, visited⟩⟩
    · intro other also
      obtain rfl : next = other := Except.ok.inj (visited.symm.trans also)
      exact ⟨sameDefaults, fun host => by simp [sameTargets, sampler]⟩

/-- The loop ends well exactly when every port on its way can be read, and then
it has kept the defaults up and added every sampler's host. -/
theorem visitAll_spec (elements : List Element) :
    ∀ scan : Scan,
      ((∃ last, visitAll rt scan elements = .ok last) ↔ SampledPorts rt scan.defaults elements) ∧
        ∀ last, visitAll rt scan elements = .ok last →
          last.defaults = elements.foldl override scan.defaults ∧
            ∀ host, (∃ t ∈ last.targets, t.host = host) ↔
              (∃ t ∈ scan.targets, t.host = host) ∨ Sampled scan.defaults elements host := by
  induction elements with
  | nil =>
      intro scan
      have unreached : ∀ defaults element, ¬ Reached scan.defaults [] defaults element := by
        rintro defaults element ⟨front, back, shape, -⟩
        simp at shape
      refine ⟨⟨fun _ => ?_, fun _ => ⟨scan, rfl⟩⟩, ?_⟩
      · exact fun defaults element reached => (unreached defaults element reached).elim
      · rintro last ⟨⟩
        refine ⟨rfl, fun host => (or_iff_left ?_).symm⟩
        rintro ⟨defaults, element, reached, -⟩
        exact unreached defaults element reached
  | cons first rest ih =>
      intro scan
      obtain ⟨ends, keeps⟩ := @visit_spec rt scan first
      rw [visitAll, sampledPorts_cons]
      cases visited : visit rt scan first with
      | error exc =>
          have stuck : ¬ ∃ next, visit rt scan first = .ok next := by simp [visited]
          rw [ends] at stuck
          constructor
          · simp only [reduceCtorEq, exists_false, false_iff]
            exact fun both => stuck both.1
          · intro last impossible
            cases impossible
      | ok next =>
          have here := ends.mp ⟨next, visited⟩
          obtain ⟨sameDefaults, sameTargets⟩ := keeps next visited
          obtain ⟨laterEnds, laterKeeps⟩ := ih next
          rw [sameDefaults] at laterEnds laterKeeps
          refine ⟨?_, fun last ended => ?_⟩
          · simp only [laterEnds]
            exact ⟨fun later => ⟨here, later⟩, And.right⟩
          · obtain ⟨lastDefaults, lastTargets⟩ := laterKeeps last ended
            refine ⟨lastDefaults, fun host => ?_⟩
            rw [lastTargets, sameTargets, sampled_cons, or_assoc]

/-! ## The whole plan -/

/-- A host that the document keeps: a sampler's own domain; the domain of a
defaults element that a sampler without one inherits before the next defaults
element; or the domain of the last defaults element. -/
inductive Kept (elements : List Element) (host : String) : Prop
  | own (sampler : Element) :
    sampler ∈ elements → IsSampler sampler → ownDomain sampler = host → Kept elements host
  | inherited (front mid back : List Element) (d sampler : Element) :
    elements = front ++ d :: mid ++ sampler :: back → IsDefaults d → ownDomain d = host →
    (∀ element ∈ mid, ¬ IsDefaults element) → IsSampler sampler → ownDomain sampler = "" →
    Kept elements host
  | final (front back : List Element) (d : Element) :
    elements = front ++ d :: back → IsDefaults d → ownDomain d = host →
    (∀ element ∈ back, ¬ IsDefaults element) → Kept elements host

/-- Every port text of a target can be read: that of each sampler with a host,
its own or else that of the defaults in force, and that of the last defaults. -/
def PortsReadable (rt : Runtime) (elements : List Element) : Prop :=
  SampledPorts rt Dict.empty elements ∧
    (domainOf (inForce elements) ≠ "" →
      ReadablePort rt (((inForce elements).get? portProp).getD ""))

/-- The hosts kept are those the loop and its last step report. -/
theorem kept_iff {elements : List Element} {host : String} (nonempty : host ≠ "") :
    Kept elements host ↔
      Sampled Dict.empty elements host ∨ domainOf (inForce elements) = host := by
  constructor
  · intro kept
    cases kept with
    | own sampler member isSampler same =>
        obtain ⟨front, back, rfl⟩ := List.append_of_mem member
        refine Or.inl ⟨_, sampler, ⟨front, back, rfl, rfl⟩, isSampler, nonempty, ?_⟩
        have named : domainOf (stringProps sampler) ≠ "" := fun empty =>
          nonempty (same.symm.trans empty)
        rw [setting_domain, if_neg named]
        exact same
    | inherited front mid back d sampler shape isDefaults same between isSampler none =>
        refine Or.inl ⟨_, sampler, ⟨front ++ d :: mid, back, shape, rfl⟩, isSampler, nonempty, ?_⟩
        rw [setting_domain, if_pos (show domainOf (stringProps sampler) = "" from none)]
        exact (domainOf_inForce_iff.mpr ⟨front, d, mid, rfl, isDefaults, same, between⟩).2
    | final front back d shape isDefaults same behind =>
        exact Or.inr (domainOf_inForce_iff.mpr ⟨front, d, back, shape, isDefaults, same, behind⟩).2
  · rintro (⟨defaults, sampler, ⟨front, back, rfl, rfl⟩, isSampler, -, same⟩ | same)
    · rw [setting_domain] at same
      split at same
      · rename_i none
        obtain ⟨front', d, mid, rfl, isDefaults, sameDomain, between⟩ :=
          domainOf_inForce_iff.mp ⟨nonempty, same⟩
        exact .inherited front' mid back d sampler rfl isDefaults sameDomain between isSampler none
      · exact .own sampler (by simp) isSampler same
    · obtain ⟨front, d, back, shape, isDefaults, sameDomain, behind⟩ :=
        domainOf_inForce_iff.mp ⟨nonempty, same⟩
      exact .final front back d shape isDefaults sameDomain behind

/-- A host that is kept stands in the document. -/
theorem isDomainValue_of_kept {elements : List Element} {host : String} (nonempty : host ≠ "")
    (kept : Kept elements host) : IsDomainValue elements host := by
  cases kept with
  | own sampler member isSampler same =>
      subst same
      exact isDomainValue_of_ownDomain member (Or.inl isSampler) nonempty
  | inherited front mid back d sampler shape isDefaults same =>
      subst same
      have member : d ∈ elements := by simp [shape]
      exact isDomainValue_of_ownDomain member (Or.inr isDefaults.1) nonempty
  | final front back d shape isDefaults same =>
      subst same
      have member : d ∈ elements := by simp [shape]
      exact isDomainValue_of_ownDomain member (Or.inr isDefaults.1) nonempty

theorem addDefaults_spec (scan : Scan) :
    ((∃ last, addDefaults rt scan = .ok last) ↔
        (domainOf scan.defaults ≠ "" →
          ReadablePort rt ((scan.defaults.get? portProp).getD ""))) ∧
      ∀ last, addDefaults rt scan = .ok last →
        ∀ host, (∃ t ∈ last.targets, t.host = host) ↔
          (∃ t ∈ scan.targets, t.host = host) ∨ (host ≠ "" ∧ domainOf scan.defaults = host) := by
  unfold addDefaults
  by_cases none : domainOf scan.defaults = ""
  · rw [truthy_eq_none_iff.mpr none]
    refine ⟨⟨fun _ named => (named none).elim, fun _ => ⟨scan, rfl⟩⟩, ?_⟩
    rintro last ⟨⟩ host
    rw [none]
    refine (or_iff_left ?_).symm
    exact fun empty => empty.1 empty.2.symm
  · rw [truthy_eq_some_iff.mpr ⟨none, rfl⟩, ← port_ok_iff]
    cases port rt ((scan.defaults.get? portProp).getD "") with
    | error exc => simp [none]
    | ok number =>
        refine ⟨⟨fun _ _ => ⟨number, rfl⟩, fun _ => ⟨_, rfl⟩⟩, ?_⟩
        rintro last ⟨⟩ host
        simp only [List.mem_append, List.mem_singleton, or_and_right, exists_or, exists_eq_left]
        constructor
        · rintro (old | rfl)
          · exact Or.inl old
          · exact Or.inr ⟨none, rfl⟩
        · rintro (old | ⟨-, same⟩)
          · exact Or.inl old
          · exact Or.inr same

/-- `parse_plan` returns exactly when the ports can be read, and then it
reports exactly the hosts the document keeps. -/
theorem parsePlan_spec {text : String} {root : Element} (wellFormed : rt.fromstring text = .ok root) :
    ((∃ summary, parsePlan rt text = .ok summary) ↔ PortsReadable rt root.iter) ∧
      ∀ summary, parsePlan rt text = .ok summary →
        ∀ host, (∃ t ∈ summary.targets, t.host = host) ↔ host ≠ "" ∧ Kept root.iter host := by
  obtain ⟨ends, keeps⟩ := @visitAll_spec rt root.iter {}
  unfold parsePlan
  rw [wellFormed]
  simp only [PortsReadable]
  cases visited : visitAll rt {} root.iter with
  | error exc =>
      have stuck : ¬ ∃ last, visitAll rt {} root.iter = .ok last := by simp [visited]
      rw [ends] at stuck
      refine ⟨?_, fun summary impossible => by cases impossible⟩
      simp only [reduceCtorEq, exists_false, false_iff]
      exact fun both => stuck both.1
  | ok scan =>
      have sampled := ends.mp ⟨scan, visited⟩
      obtain ⟨defaults, targets⟩ := keeps scan visited
      obtain ⟨lastEnds, lastKeeps⟩ := @addDefaults_spec rt scan
      rw [show scan.defaults = inForce root.iter from defaults] at lastEnds lastKeeps
      dsimp only
      cases added : addDefaults rt scan with
      | error exc =>
          have stuck : ¬ ∃ last, addDefaults rt scan = .ok last := by simp [added]
          rw [lastEnds] at stuck
          refine ⟨?_, fun summary impossible => by cases impossible⟩
          simp only [reduceCtorEq, exists_false, false_iff]
          exact fun both => stuck both.2
      | ok last =>
          refine ⟨⟨fun _ => ⟨sampled, lastEnds.mp ⟨last, added⟩⟩, fun _ => ⟨_, rfl⟩⟩, ?_⟩
          rintro summary ⟨⟩ host
          have reported : (∃ t ∈ (summarize rt text last).targets, t.host = host) ↔
              ∃ t ∈ last.targets, t.host = host := by simp [summarize]
          rw [reported, lastKeeps last added, targets]
          have fresh : ¬ ∃ t ∈ ({} : Scan).targets, t.host = host := by simp
          simp only [fresh, false_or]
          constructor
          · rintro (sampledHost | ⟨nonempty, final⟩)
            · have nonempty : host ≠ "" := by
                obtain ⟨_, _, _, _, nonempty, _⟩ := sampledHost
                exact nonempty
              exact ⟨nonempty, (kept_iff nonempty).mpr (Or.inl sampledHost)⟩
            · exact ⟨nonempty, (kept_iff nonempty).mpr (Or.inr final)⟩
          · rintro ⟨nonempty, kept⟩
            exact ((kept_iff nonempty).mp kept).imp_right fun final => ⟨nonempty, final⟩

/-- `parse_plan` returns a summary whose hosts are the document's domain values
exactly when the ports can be read and the document keeps every such value. -/
theorem parsePlan_reports_domains_iff {text : String} {root : Element}
    (wellFormed : rt.fromstring text = .ok root) :
    (∃ summary, parsePlan rt text = .ok summary ∧
        ∀ host, (∃ t ∈ summary.targets, t.host = host) ↔ IsDomainValue root.iter host) ↔
      PortsReadable rt root.iter ∧
        ∀ host, IsDomainValue root.iter host → Kept root.iter host := by
  obtain ⟨ends, hosts⟩ := parsePlan_spec wellFormed
  constructor
  · intro ⟨summary, parsed, exact⟩
    refine ⟨ends.mp ⟨summary, parsed⟩, fun host value => ?_⟩
    exact ((hosts summary parsed host).mp ((exact host).mpr value)).2
  · intro ⟨ports, keeps⟩
    obtain ⟨summary, parsed⟩ := ends.mpr ports
    refine ⟨summary, parsed, fun host => (hosts summary parsed host).trans ?_⟩
    exact ⟨fun reported => isDomainValue_of_kept reported.1 reported.2,
      fun value => ⟨value.1, keeps host value⟩⟩

/-! ## Two documents -/

/-- An element whose domain property, if any, is `domain`. -/
def httpElement (testclass : String) (domain : Option String) : Element where
  tag := testclass
  attrib := Dict.ofList [("testclass", testclass)]
  text := none
  children := domain.toList.map fun value =>
    { tag := "stringProp", attrib := Dict.ofList [("name", domainProp)], text := some value
      children := [], tail := none }
  tail := none

/-- A tree of elements directly below a `hashTree`. -/
def hashTree (children : List Element) : Element where
  tag := "hashTree"
  attrib := Dict.empty
  text := none
  children := children
  tail := none

/-- The markup of `httpElement`. -/
def httpMarkup (testclass : String) (domain : Option String) : String :=
  let property (value : String) : String :=
    "<stringProp name=\"" ++ domainProp ++ "\">" ++ value ++ "</stringProp>"
  "<" ++ testclass ++ " testclass=\"" ++ testclass ++ "\">" ++ (domain.elim "" property) ++
    "</" ++ testclass ++ ">"

/-- A text's bytes in a file. -/
def utf8 (text : String) : List UInt8 := text.toUTF8.toList

/-- The interpreter reading one document. -/
def reading (text : String) (root : Element) : Runtime where
  ucd := Unicode.basic
  sets := SetOrder.listed
  decode bytes := if bytes = utf8 text then text else ""
  decodeStrict bytes := if bytes = utf8 text then some text else none
  decodeReplace bytes := if bytes = utf8 text then text else ""
  fromstring other := if other = text then .ok root else .error "syntax error: line 1, column 0"
  safeLoad _ := .ok .none
  sha256 _ := ""

theorem reading_fromstring (text : String) (root : Element) :
    (reading text root).fromstring text = .ok root := by
  rw [reading]
  exact if_pos rfl

theorem reading_decode (text : String) (root : Element) :
    (reading text root).decode (utf8 text) = text := by
  rw [reading]
  exact if_pos rfl

/-- One defaults element that a sampler inherits. -/
theorem parsePlan_reports_domains_iff_inherited :
    let text := "<hashTree>" ++ httpMarkup "ConfigTestElement" (some "a.test") ++
      httpMarkup "HTTPSamplerProxy" none ++ "</hashTree>"
    let root := hashTree
      [httpElement "ConfigTestElement" (some "a.test"), httpElement "HTTPSamplerProxy" none]
    (∃ summary, parsePlan (reading text root) text = .ok summary ∧
        ∀ host, (∃ t ∈ summary.targets, t.host = host) ↔ IsDomainValue root.iter host) ↔
      PortsReadable (reading text root) root.iter ∧
        ∀ host, IsDomainValue root.iter host → Kept root.iter host :=
  parsePlan_reports_domains_iff (reading_fromstring _ _)

/-- Of two defaults elements in a row the first is lost. -/
theorem parsePlan_loses_defaults :
    ¬ ∀ (rt : Runtime) (text : String) (root : Element), rt.fromstring text = .ok root →
      ∃ summary, parsePlan rt text = .ok summary ∧
        ∀ host, (∃ t ∈ summary.targets, t.host = host) ↔ IsDomainValue root.iter host := by
  intro complete
  let text := "<hashTree>" ++ httpMarkup "ConfigTestElement" (some "a.test") ++
    httpMarkup "ConfigTestElement" (some "b.test") ++ "</hashTree>"
  let root := hashTree
    [httpElement "ConfigTestElement" (some "a.test"), httpElement "ConfigTestElement" (some "b.test")]
  obtain ⟨summary, parsed, hosts⟩ := complete (reading text root) text root (reading_fromstring _ _)
  have result : (parsePlan (reading text root) text).toOption.map PlanSummary.targets =
      some [{ scheme := "http", host := "b.test", port := none }] := by
    rw [parsePlan, reading_fromstring]
    decide +kernel
  rw [parsed] at result
  have targets := Option.some.inj result
  have value : IsDomainValue root.iter "a.test" := by decide +kernel
  obtain ⟨target, member, same⟩ := (hosts "a.test").mpr value
  rw [targets, List.mem_singleton] at member
  rw [member] at same
  exact absurd same (by decide)

end Plimsoll.Jmx
