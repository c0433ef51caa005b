import Mathlib.Algebra.Ring.Parity
import Pilot2Cloud.Drc.NacosWrapper

/-!
# Healthy instances

An instance that is handed out was healthy in the last update of its service,
as long as every instance of the table is listed in every update and a new
instance is not unhealthy.
-/

namespace Pilot2Cloud
namespace Drc

open Foundation

namespace Instance

variable {first second : Instance}

/-- The text of a port has no colon. -/
theorem colon_notMem_toString (port : Int) : ':' ∉ (toString port).toList := by
  have noColon (number : Nat) : ':' ∉ number.repr.toList := by
    rw [Nat.toList_repr]
    intro isMember
    have isDigit :=
      Nat.isDigit_of_mem_toDigits (by decide) (by decide) isMember
    exact absurd isDigit (by decide)
  cases port with
  | ofNat number => exact noColon number
  | negSucc number =>
      change ':' ∉ ("-" ++ (number + 1).repr).toList
      rw [String.toList_append]
      intro isMember
      obtain isSign | later := List.mem_append.mp isMember
      · exact absurd isSign (by decide)
      · exact noColon _ later

/-- The part behind the last separator is determined by the whole. -/
theorem append_cons_inj_of_notMem {α : Type} {separator : α}
    {front back otherFront otherBack : List α} (noBack : separator ∉ back)
    (noOther : separator ∉ otherBack)
    (same : front ++ separator :: back = otherFront ++ separator :: otherBack) :
    front = otherFront ∧ back = otherBack := by
  obtain ⟨middle, rfl, split⟩ | ⟨middle, rfl, split⟩ :=
    List.append_eq_append_iff.mp same
  · cases middle with
    | nil => exact ⟨(List.append_nil _).symm, (List.cons.inj split).2⟩
    | cons first middle =>
        refine absurd ?_ noBack
        rw [(List.cons.inj split).2]
        exact List.mem_append_right _ List.mem_cons_self
  · cases middle with
    | nil => exact ⟨List.append_nil _, (List.cons.inj split).2.symm⟩
    | cons first middle =>
        refine absurd ?_ noOther
        rw [(List.cons.inj split).2]
        exact List.mem_append_right _ List.mem_cons_self

/-- The key determines the address and the port. -/
theorem key_inj (same : first.key = second.key) :
    first.ip = second.ip ∧ toString first.port = toString second.port := by
  have sameList := congrArg String.toList same
  unfold key at sameList
  simp only [String.toList_append] at sameList
  rw [List.append_assoc, List.append_assoc] at sameList
  obtain ⟨sameIp, samePort⟩ := append_cons_inj_of_notMem
    (colon_notMem_toString _) (colon_notMem_toString _) sameList
  exact ⟨String.toList_inj.mp sameIp, String.toList_inj.mp samePort⟩

end Instance

namespace DrcNacosWrapper

variable {instanceMap : INSTANCE_INFO_MAP} {it other : Instance} {key : String}
  {instances : List Instance}

/-- The first instance with a key stays in the table of a first update. -/
theorem find_insertFirst :
    (insertFirst instanceMap it).find key =
      if key = it.key then some ((instanceMap.find key).getD it)
      else instanceMap.find key := by
  unfold insertFirst
  rw [SortedMap.find_insert]
  split_ifs with isKey
  · rw [isKey]
  · rfl

/-- A later update enters a new key, takes an offline one out and replaces
another. -/
theorem find_mergeInstance :
    (mergeInstance instanceMap it).find key =
      if key = it.key then
        if instanceMap.find key ≠ none ∧ it.healthy = false then none
        else some it
      else instanceMap.find key := by
  unfold mergeInstance
  split
  case h_1 absent =>
    rw [SortedMap.find_insert, absent]
    split_ifs with isKey isOffline
    · rw [isKey] at isOffline
      exact absurd absent isOffline.1
    · rfl
    · rfl
  case h_2 old found =>
    split
    case isTrue unhealthy =>
      rw [SortedMap.find_erase]
      split_ifs with isKey isOffline
      · rfl
      · rw [isKey, found] at isOffline
        exact absurd ⟨Option.some_ne_none old, unhealthy⟩ isOffline
      · rfl
    case isFalse isHealthy =>
      rw [SortedMap.find_assign]
      split_ifs with isKey isOffline
      · exact absurd isOffline.2 isHealthy
      · rfl
      · rfl

/-- The table of a first update has listed instances. -/
theorem mem_of_foldl_insertFirst
    (found : (instances.foldl insertFirst instanceMap).find key = some it) :
    it ∈ instances ∧ it.key = key ∨ instanceMap.find key = some it := by
  induction instances generalizing instanceMap with
  | nil => exact .inr found
  | cons other instances inductionHypothesis =>
      obtain ⟨later, isKey⟩ | earlier := inductionHypothesis found
      · exact .inl ⟨List.mem_cons_of_mem _ later, isKey⟩
      · rw [find_insertFirst] at earlier
        split_ifs at earlier with isKey
        · cases old : instanceMap.find key with
          | none =>
              rw [old] at earlier
              obtain rfl := Option.some_inj.mp earlier
              exact .inl ⟨List.mem_cons_self, isKey.symm⟩
          | some previous =>
              rw [old] at earlier
              exact .inr earlier
        · exact .inr earlier

/-- An instance of the table after an update is listed, or it was in the table
and its key is not listed. -/
theorem mem_of_foldl_mergeInstance
    (found : (instances.foldl mergeInstance instanceMap).find key = some it) :
    it ∈ instances ∧ it.key = key ∨
      instanceMap.find key = some it ∧ ∀ other ∈ instances, other.key ≠ key :=
    by
  induction instances generalizing instanceMap with
  | nil =>
      exact .inr ⟨found, fun other isMember =>
        absurd isMember List.not_mem_nil⟩
  | cons other instances inductionHypothesis =>
      obtain ⟨later, isKey⟩ | ⟨earlier, notLater⟩ := inductionHypothesis found
      · exact .inl ⟨List.mem_cons_of_mem _ later, isKey⟩
      · rw [find_mergeInstance] at earlier
        split_ifs at earlier with isKey isOffline
        · obtain rfl := Option.some_inj.mp earlier
          exact .inl ⟨List.mem_cons_self, isKey.symm⟩
        · right
          refine ⟨earlier, List.forall_mem_cons.mpr ⟨?_, notLater⟩⟩
          exact Ne.symm isKey

/-- Unhealthy entries with one key take the key into the table and out of it in
turn. -/
theorem foldl_mergeInstance_eq_none_iff
    (unhealthy : ∀ it ∈ instances, it.key = key → it.healthy = false) :
    (instances.foldl mergeInstance instanceMap).find key = none ↔
      (instanceMap.find key ≠ none ↔
        Odd (instances.countP fun it => it.key = key)) := by
  induction instances generalizing instanceMap with
  | nil => simp
  | cons it instances inductionHypothesis =>
      obtain ⟨first, rest⟩ := List.forall_mem_cons.mp unhealthy
      rw [List.foldl_cons, inductionHypothesis rest, find_mergeInstance,
        List.countP_cons]
      by_cases isKey : key = it.key
      · rw [if_pos isKey, if_pos (decide_eq_true isKey.symm), Nat.odd_add_one]
        by_cases isKnown : instanceMap.find key = none
        · simp [isKnown]
        · simp [isKnown, first isKey.symm]
      · rw [if_neg isKey, if_neg (by simpa using Ne.symm isKey), Nat.add_zero]

end DrcNacosWrapper

/-- The wrapper, and the last successful update of each service. -/
structure Discovery where
  wrapper : DrcNacosWrapper
  latest : String → Option (List Instance)

/-- An update of a service with the result of its query, or a call for an
instance. -/
inductive Event where
  | update (serviceName : String) (query : Option (List Instance))
  | getHealthy (serviceName instanceIP instancePort : String)

namespace Discovery

/-- The wrapper before the first update. -/
def start : Discovery := ⟨.start, fun _ => none⟩

/-- The last successful update after a query. -/
def record (latest : String → Option (List Instance)) (serviceName : String) :
    Option (List Instance) → String → Option (List Instance)
  | none => latest
  | some instances => Function.update latest serviceName (some instances)

/-- An update that reads no missing entry, or a call that hands an instance
out. -/
inductive Step : Discovery → Event → Discovery → Prop
  | update {discovery : Discovery} {serviceName : String}
      {query : Option (List Instance)} {wrapper : DrcNacosWrapper}
      (updated : discovery.wrapper.updataClusterInstance serviceName query =
        some wrapper) :
      Step discovery (.update serviceName query)
        ⟨wrapper, record discovery.latest serviceName query⟩
  | getHealthy {discovery : Discovery}
      {serviceName instanceIP instancePort : String} :
      Step discovery (.getHealthy serviceName instanceIP instancePort)
        { discovery with
          wrapper := (discovery.wrapper.GetHealthyInstance serviceName
            instanceIP instancePort).2 }

/-- What is handed out was present and healthy in the last successful update. -/
def HandsOutHealthy (discovery : Discovery) : Prop :=
  ∀ serviceName instanceIP instancePort,
    let handed := (discovery.wrapper.GetHealthyInstance serviceName instanceIP
      instancePort).1
    handed.value = -1 ∨
      ∃ instances, discovery.latest serviceName = some instances ∧
        ∃ it ∈ instances, it.healthy = true ∧ it.ip = handed.instanceIP ∧
          toString it.port = handed.instancePort

/-- A failed query leaves the table as it is. -/
def KeepsTable (discovery : Discovery) : Event → Prop
  | .update serviceName none => ∀ wrapper,
      discovery.wrapper.updataClusterInstance serviceName none =
        some wrapper →
      wrapper.ServiceInstanceMap = discovery.wrapper.ServiceInstanceMap
  | _ => True

/-- The query failed only where there is nothing to lose, an empty list is one of
a service in the table, and every key without a healthy listed instance goes out
of the table. -/
def Consistent (discovery : Discovery) : Event → Prop
  | .update serviceName none => ∃ instanceMap : INSTANCE_INFO_MAP,
      discovery.wrapper.ServiceInstanceMap.find serviceName =
        some instanceMap ∧ instanceMap.entries = []
  | .update serviceName (some instances) =>
      match discovery.wrapper.ServiceInstanceMap.find serviceName with
      | none => instances ≠ [] ∧ ∀ it ∈ instances, ∃ other ∈ instances,
          other.key = it.key ∧ other.healthy = true
      | some instanceMap => instances ≠ [] → ∀ key : String,
          (∀ it ∈ instances, it.key = key → it.healthy = false) →
          (instanceMap.find key ≠ none ↔
            Odd (instances.countP fun it => it.key = key))
  | .getHealthy _ _ _ => True

variable {discovery next : Discovery} {event : Event}

/-- Every instance of the table has a healthy listed instance with its key. -/
def Sound (discovery : Discovery) : Prop :=
  ∀ serviceName instanceMap,
    discovery.wrapper.ServiceInstanceMap.find serviceName = some instanceMap →
    ∃ instances, discovery.latest serviceName = some instances ∧
      ∀ key it, instanceMap.find key = some it →
        it.key = key ∧ ∃ other ∈ instances, other.key = key ∧
          other.healthy = true

/-- The next instance is an entry of the table. -/
theorem nextInstance_mem {last : String} {entries : List (String × Instance)}
    {it : Instance}
    (isNext : DrcNacosWrapper.nextInstance last entries = some it) :
    ∃ key, (key, it) ∈ entries := by
  induction entries with
  | nil => cases isNext
  | cons entry entries inductionHypothesis =>
      obtain ⟨key, first⟩ := entry
      unfold DrcNacosWrapper.nextInstance at isNext
      split_ifs at isNext with isShort isOther
      · obtain rfl := Option.some_inj.mp isNext
        exact ⟨key, List.mem_cons_self⟩
      · obtain rfl := Option.some_inj.mp isNext
        exact ⟨key, List.mem_cons_self⟩
      · obtain ⟨other, later⟩ := inductionHypothesis isNext
        exact ⟨other, List.mem_cons_of_mem _ later⟩

/-- One of two instances is not the one that was handed out last. -/
theorem nextInstance_ne_none {last : String} {first second : String × Instance}
    {entries : List (String × Instance)} (different : first.1 ≠ second.1) :
    DrcNacosWrapper.nextInstance last (first :: second :: entries) ≠ none := by
  obtain ⟨firstKey, firstInstance⟩ := first
  obtain ⟨secondKey, secondInstance⟩ := second
  unfold DrcNacosWrapper.nextInstance DrcNacosWrapper.nextInstance
  split_ifs with isShort isOther isSecond
  · exact Option.some_ne_none _
  · exact Option.some_ne_none _
  · exact Option.some_ne_none _
  · rw [not_not] at isOther isSecond
    exact absurd (isOther.symm.trans isSecond) different

/-- An instance of the table has the address of a healthy listed instance. -/
theorem Sound.exists_healthy (sound : discovery.Sound) {serviceName key : String}
    {instanceMap : INSTANCE_INFO_MAP} {it : Instance}
    (isTable : discovery.wrapper.ServiceInstanceMap.find serviceName =
      some instanceMap)
    (isMember : (key, it) ∈ instanceMap.entries) :
    ∃ instances, discovery.latest serviceName = some instances ∧
      ∃ other ∈ instances, other.healthy = true ∧ other.ip = it.ip ∧
        toString other.port = toString it.port := by
  obtain ⟨instances, isLatest, listed⟩ := sound serviceName instanceMap isTable
  obtain ⟨isKey, other, isListed, sameKey, isHealthy⟩ :=
    listed key it (SortedMap.find_eq_some_iff.mpr isMember)
  obtain ⟨sameIp, samePort⟩ := Instance.key_inj (sameKey.trans isKey.symm)
  exact ⟨instances, isLatest, other, isListed, isHealthy, sameIp, samePort⟩

/-- What is handed out is a healthy listed instance. -/
theorem Sound.handsOutHealthy (sound : discovery.Sound) :
    discovery.HandsOutHealthy := by
  intro serviceName instanceIP instancePort
  unfold DrcNacosWrapper.GetHealthyInstance
  cases isTable : discovery.wrapper.ServiceInstanceMap.find serviceName with
  | none => exact .inl rfl
  | some instanceMap =>
      have healthy {key : String} {it : Instance} :=
        @Sound.exists_healthy _ sound _ key _ it isTable
      have sorted := instanceMap.sorted
      dsimp only
      generalize instanceMap.entries = entries at healthy sorted
      match entries with
      | [] => exact .inl rfl
      | [(key, it)] => exact .inr (healthy List.mem_cons_self)
      | first :: second :: rest =>
          right
          dsimp only
          cases isNext : DrcNacosWrapper.nextInstance
              (discovery.wrapper.poller serviceName)
              (first :: second :: rest) with
          | none =>
              have ordered := (List.pairwise_cons.mp sorted).1 second
                List.mem_cons_self
              exact absurd isNext (nextInstance_ne_none (ne_of_lt ordered))
          | some it =>
              obtain ⟨key, isMember⟩ := nextInstance_mem isNext
              exact healthy isMember

/-- Handing out an instance changes only the poller. -/
theorem Sound.getHealthy (sound : discovery.Sound)
    (serviceName instanceIP instancePort : String) :
    Sound { discovery with
      wrapper := (discovery.wrapper.GetHealthyInstance serviceName instanceIP
        instancePort).2 } := by
  have same : (discovery.wrapper.GetHealthyInstance serviceName instanceIP
      instancePort).2.ServiceInstanceMap =
        discovery.wrapper.ServiceInstanceMap := by
    unfold DrcNacosWrapper.GetHealthyInstance
    split
    · rfl
    · split
      · rfl
      · rfl
      · split
        · rfl
        · rfl
  unfold Sound
  rw [same]
  exact sound

/-- A table after an update whose entries have healthy listed instances. -/
theorem Sound.assign (sound : discovery.Sound) {serviceName : String}
    {instances : List Instance} {instanceMap : INSTANCE_INFO_MAP}
    {ServiceInstanceMap : SortedMap String INSTANCE_INFO_MAP}
    {pollerInstanceMap : SortedMap String String}
    (isAssigned : ∀ name, ServiceInstanceMap.find name =
      if name = serviceName then some instanceMap
      else discovery.wrapper.ServiceInstanceMap.find name)
    (listed : ∀ key it, instanceMap.find key = some it →
      it.key = key ∧ ∃ other ∈ instances, other.key = key ∧
        other.healthy = true) :
    Sound ⟨⟨ServiceInstanceMap, pollerInstanceMap⟩,
      record discovery.latest serviceName (some instances)⟩ := by
  intro name table isTable
  rw [isAssigned] at isTable
  unfold record
  split_ifs at isTable with isService
  · obtain rfl := Option.some_inj.mp isTable
    subst isService
    exact ⟨instances, Function.update_self _ _ _, listed⟩
  · dsimp only
    rw [Function.update_of_ne isService]
    exact sound name table isTable

/-- A failed query for a service without instances changes nothing. -/
theorem updataClusterInstance_failed {wrapper : DrcNacosWrapper}
    {serviceName : String} {instanceMap : INSTANCE_INFO_MAP}
    (isTable : wrapper.ServiceInstanceMap.find serviceName = some instanceMap)
    (isEmpty : instanceMap.entries = []) :
    wrapper.updataClusterInstance serviceName none = some wrapper := by
  unfold DrcNacosWrapper.updataClusterInstance
  dsimp only [Option.getD_none, List.length_nil]
  rw [if_pos (Nat.le_refl 0), isTable]
  dsimp only
  rw [← SortedMap.eq_empty isEmpty, SortedMap.assign_of_find isTable]

/-- A first update, whose keys all have a healthy instance. -/
theorem listed_of_first {instances : List Instance}
    (consistent : ∀ it ∈ instances, ∃ other ∈ instances,
      other.key = it.key ∧ other.healthy = true)
    {key : String} {it : Instance}
    (found : (instances.foldl DrcNacosWrapper.insertFirst .empty).find key =
      some it) :
    it.key = key ∧ ∃ other ∈ instances, other.key = key ∧
      other.healthy = true := by
  obtain ⟨isListed, rfl⟩ | inEmpty :=
    DrcNacosWrapper.mem_of_foldl_insertFirst found
  · exact ⟨rfl, consistent it isListed⟩
  · cases inEmpty

/-- A later update, after which the keys without a healthy instance are out of
the table. -/
theorem listed_of_merge {instances : List Instance}
    {instanceMap : INSTANCE_INFO_MAP}
    (sameKey : ∀ key it, instanceMap.find key = some it → it.key = key)
    (consistent : ∀ key : String,
      (∀ it ∈ instances, it.key = key → it.healthy = false) →
      (instanceMap.find key ≠ none ↔
        Odd (instances.countP fun it => it.key = key)))
    {key : String} {it : Instance}
    (found : (instances.foldl DrcNacosWrapper.mergeInstance instanceMap).find
      key = some it) :
    it.key = key ∧ ∃ other ∈ instances, other.key = key ∧
      other.healthy = true := by
  constructor
  · obtain ⟨-, isKey⟩ | ⟨earlier, -⟩ :=
      DrcNacosWrapper.mem_of_foldl_mergeInstance found
    · exact isKey
    · exact sameKey key it earlier
  · by_contra noHealthy
    have unhealthy : ∀ other ∈ instances, other.key = key →
        other.healthy = false := by
      intro other isListed isKey
      by_contra isHealthy
      exact noHealthy ⟨other, isListed, isKey, by simpa using isHealthy⟩
    have absent :=
      (DrcNacosWrapper.foldl_mergeInstance_eq_none_iff unhealthy).mpr
        (consistent key unhealthy)
    rw [found] at absent
    cases absent

/-- A consistent update keeps the invariant. -/
theorem Sound.update (sound : discovery.Sound) {serviceName : String}
    {query : Option (List Instance)} {wrapper : DrcNacosWrapper}
    (consistent : discovery.Consistent (.update serviceName query))
    (updated : discovery.wrapper.updataClusterInstance serviceName query =
      some wrapper) :
    Sound ⟨wrapper, record discovery.latest serviceName query⟩ := by
  match query with
  | none =>
      obtain ⟨instanceMap, isTable, isEmpty⟩ := consistent
      have same := updataClusterInstance_failed isTable isEmpty
      rw [same] at updated
      obtain rfl := Option.some_inj.mp updated
      exact sound
  | some instances =>
      unfold Consistent at consistent
      unfold DrcNacosWrapper.updataClusterInstance at updated
      dsimp only [Option.getD_some] at consistent updated
      cases isTable : discovery.wrapper.ServiceInstanceMap.find serviceName with
      | none =>
          rw [isTable] at consistent updated
          dsimp only at consistent updated
          obtain ⟨nonempty, consistent⟩ := consistent
          rw [if_neg (by simpa using nonempty)] at updated
          obtain rfl := Option.some_inj.mp updated
          refine sound.assign ?_ fun key it => listed_of_first consistent
          intro name
          rw [SortedMap.find_insert, isTable]
          rfl
      | some instanceMap =>
          rw [isTable] at consistent updated
          dsimp only at consistent updated
          split_ifs at updated with isEmpty
          · obtain rfl := Option.some_inj.mp updated
            refine sound.assign (fun name => SortedMap.find_assign) ?_
            intro key it found
            cases found
          · obtain rfl := Option.some_inj.mp updated
            refine sound.assign (fun name => SortedMap.find_assign) ?_
            intro key it
            obtain ⟨previous, isLatest, listed⟩ :=
              sound serviceName instanceMap isTable
            apply listed_of_merge (fun key it found => (listed key it found).1)
            apply consistent
            simpa using isEmpty

/-- Consistent events keep the invariant. -/
theorem Sound.step (sound : discovery.Sound)
    (consistent : discovery.Consistent event)
    (first : Step discovery event next) :
    next.Sound := by
  cases first with
  | update updated => exact sound.update consistent updated
  | getHealthy => exact sound.getHealthy _ _ _

/-- A consistent event is possible. -/
theorem exists_step (consistent : discovery.Consistent event) :
    ∃ next, Step discovery event next := by
  cases event with
  | getHealthy serviceName instanceIP instancePort => exact ⟨_, .getHealthy⟩
  | update serviceName query =>
      have isUpdated : ∃ wrapper, discovery.wrapper.updataClusterInstance
          serviceName query = some wrapper := by
        match query with
        | none =>
            obtain ⟨instanceMap, isTable, isEmpty⟩ := consistent
            exact ⟨_, updataClusterInstance_failed isTable isEmpty⟩
        | some instances =>
            unfold Consistent at consistent
            unfold DrcNacosWrapper.updataClusterInstance
            dsimp only [Option.getD_some] at consistent ⊢
            cases isTable :
                discovery.wrapper.ServiceInstanceMap.find serviceName with
            | none =>
                rw [isTable] at consistent
                have nonempty := consistent.1
                rw [if_neg (by simpa using nonempty)]
                exact ⟨_, rfl⟩
            | some instanceMap =>
                split
                · exact ⟨_, rfl⟩
                · exact ⟨_, rfl⟩
      obtain ⟨wrapper, updated⟩ := isUpdated
      exact ⟨_, .update updated⟩

/-- A consistent failed query leaves the table as it is. -/
theorem Consistent.keepsTable (consistent : discovery.Consistent event) :
    discovery.KeepsTable event := by
  match event with
  | .getHealthy serviceName instanceIP instancePort => trivial
  | .update serviceName (some instances) => trivial
  | .update serviceName none =>
      intro wrapper updated
      obtain ⟨instanceMap, isTable, isEmpty⟩ := consistent
      rw [updataClusterInstance_failed isTable isEmpty] at updated
      rw [← Option.some_inj.mp updated]

theorem Sound.start : Discovery.start.Sound := by
  intro serviceName instanceMap isTable
  cases isTable

/-- In every run of consistent updates no missing entry of the table is read,
only healthy instances of the last update are handed out, and a failed query
leaves the table as it is. -/
theorem handsOutHealthy_of_consistent {events : List Event}
    (along : Along Step Consistent start events) :
    (∃ final, Run Step start events final) ∧
      (∀ state, Reached Step start events state → state.HandsOutHealthy) ∧
      Along Step KeepsTable start events := by
  refine ⟨?_, ?_, ?_⟩
  · exact along.exists_run fun _ _ consistent => exists_step consistent
  · intro state reached
    have sound : state.Sound :=
      along.of_reached Sound
        (fun _ _ _ sound consistent first => sound.step consistent first)
        .start reached
    exact sound.handsOutHealthy
  · exact along.mono fun _ _ consistent => consistent.keepsTable

/-- Two instances of a service are listed, then none, a query fails, and the
second instance is listed as offline. -/
def etodEvents : List Event :=
  [.update "etod" (some [⟨"10.0.0.1", 80, true⟩, ⟨"10.0.0.2", 80, true⟩]),
    .getHealthy "etod" "" "", .update "etod" (some []), .update "etod" none,
    .update "etod" (some [⟨"10.0.0.1", 80, true⟩, ⟨"10.0.0.2", 80, false⟩,
      ⟨"10.0.0.2", 80, false⟩]),
    .getHealthy "etod" "" ""]

/-- All of these updates are consistent. -/
theorem along_etodEvents : Along Step Consistent start etodEvents := by
  refine ⟨⟨nofun, ?_⟩, ?_⟩
  · intro it isListed
    refine ⟨it, isListed, rfl, ?_⟩
    obtain rfl | isListed := List.mem_cons.mp isListed
    · rfl
    · rw [List.mem_singleton.mp isListed]
  intro next first
  cases first with
  | @update _ _ wrapper updated =>
  obtain rfl := Option.some.inj updated
  refine ⟨trivial, ?_⟩
  rintro _ ⟨⟩
  refine ⟨fun some => absurd rfl some, ?_⟩
  intro next third
  cases third with
  | @update _ _ wrapper updated =>
  obtain rfl := Option.some.inj updated
  refine ⟨⟨.empty, rfl, rfl⟩, ?_⟩
  intro next fourth
  cases fourth with
  | @update _ _ wrapper updated =>
  obtain rfl := Option.some.inj updated
  refine ⟨?_, fun _ _ => ⟨trivial, fun _ _ => trivial⟩⟩
  intro _ key offline
  have online : key ≠ Instance.key ⟨"10.0.0.1", 80, true⟩ := by
    rintro rfl
    exact absurd (offline _ List.mem_cons_self rfl) (by decide)
  refine iff_of_false (fun isSome => isSome rfl) ?_
  by_cases isSecond : key = Instance.key ⟨"10.0.0.2", 80, false⟩
  · rw [isSecond]
    decide
  · rw [List.countP_eq_zero.mpr]
    · decide
    · intro it isListed
      simp only [List.mem_cons, List.not_mem_nil, or_false] at isListed
      rcases isListed with rfl | rfl | rfl
      · simpa using online.symm
      · simpa using Ne.symm isSecond
      · simpa using Ne.symm isSecond

/-- Only healthy instances are handed out after them. -/
theorem handsOutHealthy_of_consistent_etod :
    (∃ final, Run Step start etodEvents final) ∧
      (∀ state, Reached Step start etodEvents state → state.HandsOutHealthy) ∧
      Along Step KeepsTable start etodEvents :=
  handsOutHealthy_of_consistent along_etodEvents

/-- An instance that is not in the second update is handed out after it. -/
theorem exists_not_handsOutHealthy :
    ∃ state, Run Step start
      [.update "etod" (some [⟨"10.0.0.1", 80, true⟩]),
        .update "etod" (some [⟨"10.0.0.2", 80, true⟩])] state ∧
      ¬state.HandsOutHealthy := by
  refine ⟨_, .cons (.update rfl) (.cons (.update rfl) (.nil _)), ?_⟩
  intro healthy
  obtain isNone | ⟨instances, isLatest, it, isListed, -, sameIp, -⟩ :=
    healthy "etod" "" ""
  · revert isNone
    decide
  · have same : [⟨"10.0.0.2", 80, true⟩] = instances :=
      Option.some_inj.mp isLatest
    rw [← same] at isListed
    rw [List.mem_singleton.mp isListed] at sameIp
    revert sameIp
    decide

end Discovery

end Drc
end Pilot2Cloud
