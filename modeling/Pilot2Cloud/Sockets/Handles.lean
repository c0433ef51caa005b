import Mathlib
import Pilot2Cloud.Sockets.NetManager

/-!
# Handles of sockets are not confused

A handle is looked up as the socket that it was issued for or as nothing, as
long as the counter of handles has not come round.  The counter advances with
every `ConnHandle` that is constructed, which each socket and each connection
does for a member of its own, so it comes round before `2 ^ 32` sockets have been
added.
-/

namespace Pilot2Cloud
namespace Sockets

/-- A call of the net manager, or something else that constructs a handle. -/
inductive NetRequest
  /-- A `ConnHandle` is constructed that gets no entry: the member of a new
  socket or connection, or the variable of `createServerConnection`. -/
  | construct
  | addPlatformSocket (socket : Socket)
  | close (handle : ConnHandle)
  | lookUp (handle : ConnHandle)
  deriving DecidableEq

/-- A net manager with the handles that it has issued, and with the ones whose
sockets have not been closed. -/
structure NetSession where
  manager : NetManager
  issued : List (ConnHandle × Socket)
  live : List (ConnHandle × Socket)

namespace NetSession

/-- No socket has been added. -/
def initial (netHandle : Socket → ConnHandle) (protocol : Socket → UInt32) :
    NetSession :=
  ⟨.initial netHandle protocol, [], []⟩

/-- The session after a call, unless the call throws an exception. -/
def perform (session : NetSession) : NetRequest → Option NetSession
  | .construct => some { session with manager := session.manager.newHandle.1 }
  | .addPlatformSocket socket =>
      let (manager, handle) := session.manager.addPlatformSocket socket
      some {
        manager := manager
        issued :=
          if handle.isValid then (handle, socket) :: session.issued
          else session.issued
        live :=
          if handle.isValid then (handle, socket) :: session.live
          else session.live }
  | .close handle => do
      let manager ← session.manager.close handle
      return { session with
        manager := manager
        live :=
          if (session.manager.fromHandle handle).isSome then
            session.live.filter fun entry => entry.1 ≠ handle
          else session.live }
  | .lookUp _ => some session

/-- The number of sockets that are added. -/
def adds (requests : List NetRequest) : Nat :=
  requests.countP fun request => request matches .addPlatformSocket _

/-- The number of handles that are constructed, one of them for every socket that
is added. -/
def constructions (requests : List NetRequest) : Nat :=
  requests.countP fun request =>
    request matches .construct | .addPlatformSocket _

/-- Live sockets have their own entries, a socket is turned away exactly when
all entries are taken, and a handle is looked up as its own socket or not at
all. -/
structure Unconfused (session : NetSession) : Prop where
  occupies : ∀ entry ∈ session.live,
    session.manager.connList[entry.1.connIndex.toNat]? = some (some entry.2)
  distinct : (session.live.map fun entry => entry.1.connIndex.toNat).Nodup
  refused_iff : ∀ socket,
    (session.manager.addPlatformSocket socket).2.isValid = false ↔
      ∀ index < maxConnectionCount,
        ∃ entry ∈ session.live, entry.1.connIndex.toNat = index
  resolves : ∀ entry ∈ session.issued,
    session.manager.fromHandle entry.1 = some entry.2 ∨
      session.manager.fromHandle entry.1 = none
  /-- Nothing else is looked up as a socket. -/
  issued : ∀ handle socket,
    session.manager.fromHandle handle = some socket →
      (handle, socket) ∈ session.issued

/-- What holds after some handles have been constructed. -/
structure Sound (session : NetSession) (count : Nat) : Prop where
  size : session.manager.connList.length = maxConnectionCount
  value : session.manager.value = UInt32.ofNat (count + 1)
  /-- The numbers of the handles were counted up from 1. -/
  magic : ∀ entry ∈ session.issued,
    ∃ number < count, entry.1.connMagic = UInt32.ofNat (number + 1)
  /-- Every number was used for one handle. -/
  unique : ∀ first ∈ session.issued, ∀ second ∈ session.issued,
    first.1.connMagic = second.1.connMagic → first = second
  /-- A socket in the table has a handle that was issued for it. -/
  issued : ∀ (index : Nat) (socket : Socket),
    session.manager.connList[index]? = some (some socket) →
      (session.manager.netHandle socket, socket) ∈ session.issued
  occupies : ∀ entry ∈ session.live,
    session.manager.connList[entry.1.connIndex.toNat]? = some (some entry.2)
  /-- The entries that are taken are those of the live handles. -/
  taken : ∀ (index : Nat) (socket : Socket),
    session.manager.connList[index]? = some (some socket) →
      ∃ handle, (handle, socket) ∈ session.live ∧
        handle.connIndex.toNat = index
  distinct : (session.live.map fun entry => entry.1.connIndex.toNat).Nodup
  /-- A socket that was added again has another entry, too. -/
  own : ∀ entry ∈ session.live,
    (session.manager.netHandle entry.2).connIndex = entry.1.connIndex →
      session.manager.netHandle entry.2 = entry.1

variable {session : NetSession} {count : Nat} {socket : Socket}
  {handle : ConnHandle} {netHandle : Socket → ConnHandle}
  {protocol : Socket → UInt32}

theorem Sound.initial : (initial netHandle protocol).Sound 0 where
  size := List.length_replicate
  value := rfl
  magic := by
    intro entry member
    contradiction
  unique := by
    intro first member
    contradiction
  issued := by
    intro index socket entry
    have noSocket := List.eq_of_mem_replicate (List.mem_of_getElem? entry)
    contradiction
  occupies := by
    intro entry member
    contradiction
  taken := by
    intro index socket entry
    have noSocket := List.eq_of_mem_replicate (List.mem_of_getElem? entry)
    contradiction
  distinct := List.nodup_nil
  own := by
    intro entry member
    contradiction

/-- A socket is turned away exactly when no entry is free. -/
theorem isValid_eq_false_iff {manager : NetManager} :
    (manager.addPlatformSocket socket).2.isValid = false ↔
      ∀ index : Nat, manager.connList[index]? ≠ some none := by
  obtain ⟨index, free, added⟩ | ⟨noneFree, added⟩ :=
    manager.addPlatformSocket_cases socket
  · rw [added]
    constructor
    · intro refused
      contradiction
    · intro noneFree
      exact absurd free (noneFree index)
  · rw [added]
    exact iff_of_true rfl noneFree

theorem Sound.unconfused (sound : session.Sound count) :
    session.Unconfused where
  occupies := sound.occupies
  distinct := sound.distinct
  refused_iff := by
    intro socket
    rw [isValid_eq_false_iff]
    constructor
    · intro noneFree index inside
      rw [← sound.size] at inside
      have entry := List.getElem?_eq_getElem inside
      cases holds : session.manager.connList[index] with
      | none =>
          rw [holds] at entry
          exact absurd entry (noneFree index)
      | some socket =>
          rw [holds] at entry
          obtain ⟨handle, live, isIndex⟩ := sound.taken index socket entry
          exact ⟨_, live, isIndex⟩
    · intro allTaken index free
      have inside : index < maxConnectionCount := by
        rw [← sound.size]
        exact (List.getElem?_eq_some_iff.mp free).1
      obtain ⟨entry, live, rfl⟩ := allTaken index inside
      rw [sound.occupies entry live] at free
      simp at free
  resolves := by
    intro entry issued
    cases found : session.manager.fromHandle entry.1 with
    | none => exact .inr rfl
    | some socket =>
        obtain ⟨taken, same⟩ := NetManager.fromHandle_eq_some_iff.mp found
        have other := sound.issued _ socket taken
        have equal := sound.unique _ other entry issued (by rw [same])
        rw [← equal]
        exact .inl rfl
  issued := by
    intro handle socket found
    obtain ⟨taken, same⟩ := NetManager.fromHandle_eq_some_iff.mp found
    rw [← same]
    exact sound.issued _ socket taken

/-! ## Calls -/

theorem ofNat_ne_of_lt {number : Nat} (before : number < count)
    (fewer : count < 2 ^ 32) :
    UInt32.ofNat (number + 1) ≠ UInt32.ofNat (count + 1) := by
  intro same
  have equal := congrArg UInt32.toNat same
  rw [UInt32.toNat_ofNat', UInt32.toNat_ofNat'] at equal
  omega

/-- An entry of the table after another one is taken or freed. -/
theorem getElem?_set_of_free {connList : List (Option Socket)}
    {index other : Nat} {conn : Option Socket}
    (entry : connList[other]? = some (some socket))
    (free : connList[index]? = some none) :
    (connList.set index conn)[other]? = some (some socket) := by
  rw [List.getElem?_set_ne, entry]
  rintro rfl
  rw [free] at entry
  simp at entry

/-- An entry that holds a socket after another one was stored held it before, or
it is the stored one. -/
theorem getElem?_set_some {connList : List (Option Socket)} {index other : Nat}
    {conn : Socket}
    (entry : (connList.set index (some socket))[other]? = some (some conn)) :
    other = index ∧ conn = socket ∨ connList[other]? = some (some conn) := by
  by_cases same : index = other
  · subst same
    have inside : index < connList.length := by
      have bound := (List.getElem?_eq_some_iff.mp entry).1
      rwa [List.length_set] at bound
    rw [List.getElem?_set_self inside] at entry
    exact .inl ⟨rfl, (Option.some_inj.mp (Option.some_inj.mp entry)).symm⟩
  · rw [List.getElem?_set_ne same] at entry
    exact .inr entry

/-- The number of a granted handle is not that of an issued one. -/
theorem Sound.magic_ne (sound : session.Sound count) (fewer : count < 2 ^ 32)
    {index : Nat} :
    ∀ entry ∈ session.issued,
      entry.1.connMagic ≠ (session.manager.granted socket index).connMagic := by
  intro entry member same
  obtain ⟨number, before, isMagic⟩ := sound.magic entry member
  rw [isMagic, NetManager.granted, sound.value] at same
  exact ofNat_ne_of_lt before fewer same

/-- A free entry is not the entry of a live handle. -/
theorem Sound.ne_of_free (sound : session.Sound count) {index : Nat}
    (free : session.manager.connList[index]? = some none) :
    ∀ entry ∈ session.live, entry.1.connIndex.toNat ≠ index := by
  rintro entry live rfl
  rw [sound.occupies entry live] at free
  simp at free

/-- A socket gets a free entry. -/
theorem Sound.place (sound : session.Sound count) (fewer : count < 2 ^ 32)
    {index : Nat} (free : session.manager.connList[index]? = some none) :
    Sound ⟨session.manager.place socket index,
      (session.manager.granted socket index, socket) :: session.issued,
      (session.manager.granted socket index, socket) :: session.live⟩
      (count + 1) := by
  have inside : index < session.manager.connList.length :=
    (List.getElem?_eq_some_iff.mp free).1
  have isIndex : (session.manager.granted socket index).connIndex.toNat =
      index := by
    rw [sound.size, maxConnectionCount] at inside
    apply UInt32.toNat_ofNat_of_lt'
    unfold UInt32.size
    omega
  have here : (session.manager.connList.set index (some socket))[index]? =
      some (some socket) :=
    List.getElem?_set_self inside
  have newMagic : ∀ entry ∈ session.issued,
      entry.1.connMagic ≠ (session.manager.granted socket index).connMagic :=
    sound.magic_ne fewer
  refine ⟨?_, ?_, ?_, ?_, ?_, ?_, ?_, ?_, ?_⟩
  · exact List.length_set.trans sound.size
  · rw [NetManager.place, sound.value, UInt32.ofNat_add (count + 1) 1]
    rfl
  · intro entry member
    obtain rfl | member := List.mem_cons.mp member
    · exact ⟨count, by omega, sound.value⟩
    · obtain ⟨number, before, isMagic⟩ := sound.magic entry member
      exact ⟨number, by omega, isMagic⟩
  · intro first firstIssued second secondIssued same
    obtain rfl | firstIssued := List.mem_cons.mp firstIssued
    · obtain rfl | secondIssued := List.mem_cons.mp secondIssued
      · rfl
      · exact absurd same.symm (newMagic second secondIssued)
    · obtain rfl | secondIssued := List.mem_cons.mp secondIssued
      · exact absurd same (newMagic first firstIssued)
      · exact sound.unique first firstIssued second secondIssued same
  · intro other conn entry
    simp only [NetManager.place]
    by_cases again : conn = socket
    · subst again
      rw [Function.update_self]
      exact List.mem_cons_self
    · rw [Function.update_of_ne again]
      obtain ⟨-, same⟩ | old := getElem?_set_some entry
      · exact absurd same again
      · exact List.mem_cons_of_mem _ (sound.issued other conn old)
  · intro entry member
    obtain rfl | member := List.mem_cons.mp member
    · rw [isIndex]
      exact here
    · exact getElem?_set_of_free (sound.occupies entry member) free
  · intro other conn entry
    obtain ⟨rfl, rfl⟩ | old := getElem?_set_some entry
    · exact ⟨_, List.mem_cons_self, isIndex⟩
    · obtain ⟨handle, live, isOther⟩ := sound.taken other conn old
      exact ⟨handle, List.mem_cons_of_mem _ live, isOther⟩
  · rw [List.map_cons, List.nodup_cons, isIndex]
    refine ⟨?_, sound.distinct⟩
    intro member
    obtain ⟨entry, live, same⟩ := List.mem_map.mp member
    exact sound.ne_of_free free entry live same
  · intro entry member
    simp only [NetManager.place]
    obtain rfl | member := List.mem_cons.mp member
    · intro _
      exact Function.update_self ..
    · by_cases again : entry.2 = socket
      · rw [again, Function.update_self]
        intro same
        rw [same] at isIndex
        exact absurd isIndex (sound.ne_of_free free entry member)
      · rw [Function.update_of_ne again]
        exact sound.own entry member

/-- A handle is constructed and gets no entry. -/
theorem Sound.construct (sound : session.Sound count) :
    Sound { session with manager := session.manager.newHandle.1 }
      (count + 1) where
  size := sound.size
  value := by
    rw [NetManager.newHandle, sound.value, UInt32.ofNat_add (count + 1) 1]
    rfl
  magic := by
    intro entry member
    obtain ⟨number, before, isMagic⟩ := sound.magic entry member
    exact ⟨number, by omega, isMagic⟩
  unique := sound.unique
  issued := sound.issued
  occupies := sound.occupies
  taken := sound.taken
  distinct := sound.distinct
  own := sound.own

theorem Sound.add (sound : session.Sound count) (fewer : count < 2 ^ 32) :
    ∃ after, session.perform (.addPlatformSocket socket) = some after ∧
      after.Sound (count + 1) := by
  obtain ⟨index, free, added⟩ | ⟨noneFree, added⟩ :=
    session.manager.addPlatformSocket_cases socket
  · refine ⟨_, ?_, @Sound.place _ _ socket sound fewer _ free⟩
    rw [perform, added]
    rfl
  · refine ⟨_, ?_, sound.construct⟩
    rw [perform, added]
    rfl

theorem Sound.close (sound : session.Sound count) :
    ∃ after, session.perform (.close handle) = some after ∧
      after.Sound count := by
  cases found : session.manager.fromHandle handle with
  | none =>
      refine ⟨session, ?_, sound⟩
      rw [perform, NetManager.close, found]
      rfl
  | some socket =>
      obtain ⟨taken, isHandle⟩ := NetManager.fromHandle_eq_some_iff.mp found
      have inside := (List.getElem?_eq_some_iff.mp taken).1
      refine ⟨⟨{ session.manager with
        connList :=
          session.manager.connList.set handle.connIndex.toNat none },
        session.issued,
        session.live.filter fun entry => entry.1 ≠ handle⟩, ?_, ?_⟩
      · rw [perform, NetManager.close, found]
        simp only [NetManager.releaseIndex, if_neg inside.le.not_gt,
          if_pos inside]
        rfl
      have elsewhere : ∀ (other : Nat) (conn : Socket),
          (session.manager.connList.set handle.connIndex.toNat none)[other]? =
              some (some conn) →
            handle.connIndex.toNat ≠ other ∧
              session.manager.connList[other]? = some (some conn) := by
        intro other conn entry
        have apart : handle.connIndex.toNat ≠ other := by
          rintro rfl
          rw [List.getElem?_set_self inside] at entry
          simp at entry
        rw [List.getElem?_set_ne apart] at entry
        exact ⟨apart, entry⟩
      -- the live handle of the entry is the one that is closed
      have closes : ∀ entry ∈ session.live,
          entry.1.connIndex.toNat = handle.connIndex.toNat →
            entry.1 = handle := by
        intro entry live same
        have occupied := sound.occupies entry live
        rw [same, taken] at occupied
        have isSocket := Option.some_inj.mp (Option.some_inj.mp occupied)
        rw [← isHandle, isSocket]
        apply (sound.own entry live _).symm
        rw [← isSocket, isHandle]
        exact UInt32.toNat_inj.mp same.symm
      refine ⟨?_, sound.value, sound.magic, sound.unique, ?_, ?_, ?_, ?_, ?_⟩
      · exact List.length_set.trans sound.size
      · intro other conn entry
        exact sound.issued other conn (elsewhere other conn entry).2
      · intro entry member
        obtain ⟨live, open'⟩ := List.mem_filter.mp member
        have apart : handle.connIndex.toNat ≠ entry.1.connIndex.toNat := by
          intro same
          exact of_decide_eq_true open' (closes entry live same.symm)
        exact (List.getElem?_set_ne apart).trans (sound.occupies entry live)
      · intro other conn entry
        obtain ⟨apart, old⟩ := elsewhere other conn entry
        obtain ⟨held, live, isOther⟩ := sound.taken other conn old
        refine ⟨held, List.mem_filter.mpr ⟨live, ?_⟩, isOther⟩
        apply decide_eq_true
        rintro rfl
        exact apart isOther
      · exact sound.distinct.sublist (List.filter_sublist.map _)
      · intro entry member
        exact sound.own entry (List.mem_filter.mp member).1

/-- Every sequence of calls goes through, and no handle is confused after it, as
long as fewer handles are constructed than there are numbers. -/
theorem Sound.performs {requests : List NetRequest}
    (sound : session.Sound count)
    (fewer : count + constructions requests ≤ 2 ^ 32) :
    ∃ after, requests.foldlM perform session = some after ∧
      after.Sound (count + constructions requests) := by
  induction requests generalizing session count with
  | nil => exact ⟨session, rfl, sound⟩
  | cons request requests inductionHypothesis =>
      have split : constructions (request :: requests) =
          constructions [request] + constructions requests := by
        unfold constructions
        rw [← List.countP_append, List.singleton_append]
      have step : ∃ after, session.perform request = some after ∧
          after.Sound (count + constructions [request]) := by
        cases request with
        | construct => exact ⟨_, rfl, sound.construct⟩
        | addPlatformSocket socket =>
            have one : constructions [.addPlatformSocket socket] = 1 := rfl
            exact sound.add (by omega)
        | close handle => exact sound.close
        | lookUp handle => exact ⟨session, rfl, sound⟩
      obtain ⟨after, performed, next⟩ := step
      rw [split, ← Nat.add_assoc] at fewer ⊢
      obtain ⟨last, rest, final⟩ := inductionHypothesis next fewer
      refine ⟨last, ?_, final⟩
      rw [List.foldlM_cons, performed]
      exact rest

/-- Handles are never confused: every sequence of calls with fewer than `2 ^ 32`
handles constructed goes through, whatever handles it uses. -/
theorem exists_unconfused (netHandle : Socket → ConnHandle)
    (protocol : Socket → UInt32) (requests : List NetRequest)
    (fewer : constructions requests < 2 ^ 32) :
    ∃ after, requests.foldlM perform (initial netHandle protocol) =
        some after ∧
      after.Unconfused := by
  have start := @Sound.initial netHandle protocol
  have enough : 0 + constructions requests ≤ 2 ^ 32 := by omega
  obtain ⟨after, performed, sound⟩ := start.performs enough
  exact ⟨after, performed, sound.unconfused⟩

/-- The handle of a closed socket is not confused with that of the socket that
uses its entry again. -/
theorem exists_unconfused_reuse :
    ∃ after, [NetRequest.construct, .addPlatformSocket 7, .construct,
        .addPlatformSocket 9, .close ⟨2, 2, 0, true⟩, .construct,
        .addPlatformSocket 8, .lookUp ⟨2, 2, 0, true⟩].foldlM perform
        (initial (fun _ => ⟨0, 0, 0, false⟩) fun _ => 2) = some after ∧
      after.Unconfused :=
  exists_unconfused _ _ _ (by decide)

/-! ## The counter comes round -/

section Rounds

/-- All entries are free and the next search starts with the first one. -/
structure Idle (session : NetSession) (value : UInt32) : Prop where
  connList : session.manager.connList = List.replicate maxConnectionCount none
  currIndex : session.manager.currIndex = 0
  value : session.manager.value = value
  protocol : session.manager.protocol = fun _ => 2

/-- A socket is created, added and closed. -/
def round (socket : Socket) (value : UInt32) : List NetRequest :=
  [.construct, .addPlatformSocket socket, .close ⟨2, value + 1, 0, true⟩]

/-- As many rounds. -/
def rounds : Nat → UInt32 → List NetRequest
  | 0, _ => []
  | count + 1, value => round 8 value ++ rounds count (value + 2)

variable {value : UInt32}

theorem Idle.firstFree (idle : session.Idle value) :
    NetManager.firstFree session.manager.connList 0
      session.manager.connList.length = some 0 := by
  rw [idle.connList, List.length_replicate]
  unfold NetManager.firstFree maxConnectionCount
  rw [Nat.sub_zero, List.range'_succ, List.find?_cons_of_pos]
  rfl

/-- The handle that the next socket gets. -/
theorem Idle.granted (idle : session.Idle value) (socket : Socket) :
    session.manager.granted socket 0 = ⟨2, value, 0, true⟩ := by
  unfold NetManager.granted
  rw [idle.value, idle.protocol]
  rfl

/-- A new socket gets the first entry. -/
theorem Idle.add (idle : session.Idle value) (socket : Socket) :
    session.perform (.addPlatformSocket socket) =
      some ⟨session.manager.place socket 0,
        (⟨2, value, 0, true⟩, socket) :: session.issued,
        (⟨2, value, 0, true⟩, socket) :: session.live⟩ := by
  have added : session.manager.addPlatformSocket socket =
      (session.manager.place socket 0, session.manager.granted socket 0) := by
    unfold NetManager.addPlatformSocket NetManager.allocIndex
    rw [idle.currIndex, idle.firstFree]
    rfl
  rw [perform, added, idle.granted]
  rfl

/-- The socket in the first entry is found by its handle. -/
theorem Idle.fromHandle (idle : session.Idle value) (socket : Socket) :
    (session.manager.place socket 0).fromHandle ⟨2, value, 0, true⟩ =
      some socket := by
  rw [NetManager.fromHandle_eq_some_iff]
  constructor
  · show (session.manager.connList.set 0 (some socket))[0]? = _
    rw [idle.connList]
    rfl
  · show Function.update _ socket _ socket = _
    rw [Function.update_self, idle.granted]

theorem Idle.construct (idle : session.Idle value) :
    Idle { session with manager := session.manager.newHandle.1 }
      (value + 1) := by
  refine ⟨idle.connList, idle.currIndex, ?_, idle.protocol⟩
  rw [NetManager.newHandle, idle.value]

/-- The counter has advanced twice after a round. -/
theorem Idle.round (idle : session.Idle value) (socket : Socket) :
    ∃ after, (round socket value).foldlM perform session = some after ∧
      after.Idle (value + 2) ∧
      (⟨2, value + 1, 0, true⟩, socket) :: session.issued ⊆ after.issued := by
  have ready := idle.construct
  have cleared : (session.manager.newHandle.1.place socket 0).connList.set 0
      none = List.replicate maxConnectionCount none := by
    show (session.manager.connList.set 0 (some socket)).set 0 none = _
    rw [List.set_set, idle.connList, List.set_replicate_self]
  have size : (session.manager.newHandle.1.place socket 0).connList.length =
      maxConnectionCount := by
    show (session.manager.connList.set 0 (some socket)).length = _
    rw [List.length_set, idle.connList, List.length_replicate]
  have closed : (session.manager.newHandle.1.place socket 0).close
      ⟨2, value + 1, 0, true⟩ =
        some { session.manager.newHandle.1.place socket 0 with
          connList := List.replicate maxConnectionCount none } := by
    rw [NetManager.close, ready.fromHandle socket]
    show NetManager.releaseIndex _ 0 = _
    rw [NetManager.releaseIndex, size, cleared]
    rfl
  refine ⟨⟨{ session.manager.newHandle.1.place socket 0 with
      connList := List.replicate maxConnectionCount none },
    (⟨2, value + 1, 0, true⟩, socket) :: session.issued,
    ((⟨2, value + 1, 0, true⟩, socket) :: session.live).filter fun entry =>
      entry.1 ≠ ⟨2, value + 1, 0, true⟩⟩, ?_, ⟨rfl, rfl, ?_, ?_⟩, ?_⟩
  · show ([.addPlatformSocket socket, .close _] : List NetRequest).foldlM
      perform { session with manager := session.manager.newHandle.1 } = _
    rw [List.foldlM_cons, ready.add socket]
    show perform _ (.close _) >>= pure = _
    rw [perform, closed, ready.fromHandle socket]
    rfl
  · show session.manager.newHandle.1.value + 1 = value + 2
    rw [ready.value, add_assoc]
    rfl
  · exact idle.protocol
  · exact List.Subset.refl _

/-- The counter has advanced twice for every round. -/
theorem Idle.rounds (idle : session.Idle value) (count : Nat) :
    ∃ after, (rounds count value).foldlM perform session = some after ∧
      after.Idle (value + 2 * UInt32.ofNat count) ∧
      session.issued ⊆ after.issued := by
  induction count generalizing session value with
  | zero =>
      refine ⟨session, rfl, ?_, List.Subset.refl _⟩
      simpa using idle
  | succ count inductionHypothesis =>
      obtain ⟨middle, first, next, issued⟩ := idle.round 8
      obtain ⟨after, rest, last, later⟩ := inductionHypothesis next
      refine ⟨after, ?_, ?_, ?_⟩
      · rw [NetSession.rounds, List.foldlM_append, first]
        exact rest
      · have one : UInt32.ofNat 1 = 1 := rfl
        have sum : value + 2 * UInt32.ofNat (count + 1) =
            value + 2 + 2 * UInt32.ofNat count := by
          rw [UInt32.ofNat_add, one, UInt32.mul_add, UInt32.mul_one,
            UInt32.add_comm (2 * _), ← UInt32.add_assoc]
        rw [sum]
        exact last
      · intro entry member
        exact later (issued (List.mem_cons_of_mem _ member))

@[simp] theorem adds_append (first second : List NetRequest) :
    adds (first ++ second) = adds first + adds second :=
  List.countP_append

@[simp] theorem adds_rounds (count : Nat) (value : UInt32) :
    adds (rounds count value) = count := by
  induction count generalizing value with
  | zero => rfl
  | succ count inductionHypothesis =>
      rw [rounds, adds_append, inductionHypothesis, Nat.add_comm]
      rfl

/-- When `2 ^ 31` sockets have been created, added and closed, the next one gets
the handle of the first one. -/
theorem not_unconfused_of_rounds :
    ¬∀ requests, adds requests < 2 ^ 32 →
      ∃ after, requests.foldlM perform
          (initial (fun _ => ⟨0, 0, 0, false⟩) fun _ => 2) = some after ∧
        after.Unconfused := by
  intro unconfused
  have start : (initial (fun _ => ⟨0, 0, 0, false⟩) fun _ => 2).Idle 1 :=
    ⟨rfl, rfl, rfl, rfl⟩
  obtain ⟨first, performed, next, own⟩ := start.round 7
  obtain ⟨middle, passed, last, issued⟩ := next.rounds (2 ^ 31 - 1)
  have around : (1 + 2 + 2 * UInt32.ofNat (2 ^ 31 - 1) : UInt32) = 1 := by
    decide
  rw [around] at last
  have few : adds (round 7 1 ++ (rounds (2 ^ 31 - 1) (1 + 2) ++
      [.construct, .addPlatformSocket 9])) < 2 ^ 32 := by
    rw [adds_append, adds_append, adds_rounds]
    decide
  obtain ⟨after, all, sound⟩ := unconfused _ few
  rw [List.foldlM_append, performed, Option.bind_eq_bind, Option.bind_some,
    List.foldlM_append, passed, Option.bind_eq_bind, Option.bind_some] at all
  obtain rfl := Option.some_inj.mp ((last.construct.add 9).symm.trans all)
  have found := last.construct.fromHandle 9
  have stale : (⟨2, 1 + 1, 0, true⟩, 7) ∈ middle.issued :=
    issued (own List.mem_cons_self)
  obtain resolved | resolved :=
    sound.resolves _ (List.mem_cons_of_mem _ stale)
  · rw [found] at resolved
    exact absurd (Option.some_inj.mp resolved) (by decide)
  · rw [found] at resolved
    exact Option.some_ne_none _ resolved

end Rounds

end NetSession
end Sockets
end Pilot2Cloud
