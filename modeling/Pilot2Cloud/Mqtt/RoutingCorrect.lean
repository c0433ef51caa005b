import Pilot2Cloud.Mqtt.TopicRouting

/-!
# Which serial numbers are routed correctly

Every topic of every list of templates is routed by its name and by the device
in it exactly if the serial numbers do not look like parts of topics and the one
of the aircraft does not end the one of the dock.
-/

namespace Pilot2Cloud
namespace Mqtt

open Foundation

/-! ## Segments in front of the serial number -/

/-- The words that routes are found by, except for the last one of `drc/up`. -/
def routeWords : List Text :=
  ["services_reply".toList, "events".toList, "requests".toList, "drc".toList,
    "osd".toList, "state".toList, "flight".toList, "gimbal".toList,
    "camera".toList, "control".toList, "zoom".toList]

/-- A segment that has nothing to do with routes or wildcards. -/
structure Neutral (segment : Text) : Prop where
  noSeparator : '/' ∉ segment
  noHash : '#' ∉ segment
  noPlus : '+' ∉ segment
  noWord : ∀ word ∈ routeWords, ¬word <:+: segment

variable {prior : List Text} {last serial : Text} {name : TopicName}

theorem segments_noSeparator (name : TopicName) :
    ∀ segment ∈ name.segments, '/' ∉ segment := by
  cases name <;> decide

theorem plain_segments (name : TopicName)
    (neutral : ∀ segment ∈ prior ++ [last], Neutral segment)
    (plain : '/' ∉ serial) :
    ∀ segment ∈ prior ++ last :: serial :: name.segments, '/' ∉ segment := by
  intro segment isMember
  rw [List.append_cons, List.mem_append, List.mem_cons] at isMember
  obtain isPrior | rfl | isBehind := isMember
  · exact (neutral segment isPrior).noSeparator
  · exact plain
  · exact segments_noSeparator name segment isBehind

/-- A search in a topic looks for a pattern of segments. -/
theorem finds_topic_iff (part : Text) (pattern : List Text)
    (name : TopicName)
    (neutral : ∀ segment ∈ prior ++ [last], Neutral segment)
    (plain : '/' ∉ serial)
    (plainPattern : ∀ piece ∈ part :: pattern, '/' ∉ piece) :
    Finds (topic prior last serial name)
        (['/'].intercalate (part :: pattern)) ↔
      Occurs (part :: pattern)
        (prior ++ last :: serial :: name.segments) := by
  have plainHere := plain_segments name neutral plain
  unfold Finds topic
  cases prior with
  | nil => exact intercalate_infix_iff plainPattern plainHere
  | cons first prior => exact intercalate_infix_iff plainPattern plainHere

/-- A word is found in the serial number or in the name of the topic. -/
theorem finds_word_iff (word : Text) (name : TopicName)
    (neutral : ∀ segment ∈ prior ++ [last], Neutral segment)
    (plain : '/' ∉ serial) (plainWord : '/' ∉ word)
    (isWord : word ∈ routeWords) :
    Finds (topic prior last serial name) word ↔
      word <:+: serial ∨ ∃ segment ∈ name.segments, word <:+: segment := by
  have pattern := finds_topic_iff word [] name neutral plain
    (by simpa using plainWord)
  rw [List.intercalate_singleton] at pattern
  rw [pattern, occurs_singleton_iff, List.append_cons]
  simp only [List.mem_append (s := prior ++ [last]), List.mem_cons,
    or_and_right, exists_or, exists_eq_left]
  apply or_iff_right
  rintro ⟨segment, isPrior, found⟩
  exact (neutral segment isPrior).noWord word isWord found

/-- Two parts with a separator are found at the serial number or in the name of
the topic. -/
theorem finds_pair_iff (first second : Text) (name : TopicName)
    (neutral : ∀ segment ∈ prior ++ [last], Neutral segment)
    (plain : '/' ∉ serial) (plainFirst : '/' ∉ first)
    (plainSecond : '/' ∉ second) (isWord : second ∈ routeWords) :
    Finds (topic prior last serial name) (first ++ '/' :: second) ↔
      (first <:+ last ∧ second <+: serial) ∨
        Occurs [first, second] (serial :: name.segments) := by
  have pattern := finds_topic_iff first [second] name neutral plain
    (by simp [plainFirst, plainSecond])
  rw [List.intercalate_cons_cons, List.intercalate_singleton] at pattern
  rw [List.append_cons first, pattern, occurs_pair_append_iff,
    occurs_pair_cons_iff]
  intro segment isPrior isPrefix
  exact (neutral segment isPrior).noWord second isWord isPrefix.isInfix

/-! ## The topics for a template -/

/-- What is in front of the serial number. -/
def topicFront (prior : List Text) (last : Text) : Text :=
  (prior ++ [last]).flatMap fun segment => segment ++ ['/']

/-- What is behind the serial number. -/
def topicBack (name : TopicName) : Text :=
  '/' :: ['/'].intercalate name.segments

/-- A topic is its front, the serial number and the rest of its name. -/
theorem topic_eq_append (prior : List Text) (last serial : Text)
    (name : TopicName) :
    topic prior last serial name =
      topicFront prior last ++ serial ++ topicBack name := by
  have nonempty : name.segments ≠ [] := by
    cases name <;> exact List.cons_ne_nil _ _
  unfold topic topicFront topicBack
  induction prior with
  | nil =>
      rw [List.nil_append, List.nil_append, List.intercalate_cons_cons,
        List.intercalate_cons_of_ne_nil nonempty, List.flatMap_singleton]
      simp
  | cons segment prior inductionHypothesis =>
      rw [List.cons_append, List.cons_append, List.flatMap_cons,
        List.intercalate_cons_of_ne_nil (by simp), inductionHypothesis]
      simp

/-- A character of the front is a separator or belongs to a segment. -/
theorem mem_topicFront {character : Char}
    (isMember : character ∈ topicFront prior last) :
    character = '/' ∨ ∃ segment ∈ prior ++ [last], character ∈ segment := by
  obtain ⟨segment, isSegment, inside⟩ := List.mem_flatMap.mp isMember
  obtain here | isSlash := List.mem_append.mp inside
  · exact .inr ⟨segment, isSegment, here⟩
  · exact .inl (List.mem_singleton.mp isSlash)

/-- The first wildcard is the one in place of the serial number. -/
theorem findChar_template {wildcard : Char} {serial : Text}
    (neutral : wildcard ∉ topicFront prior last) :
    findChar (topicFront prior last ++ wildcard :: serial) wildcard =
      some (topicFront prior last).length := by
  unfold findChar
  rw [List.findIdx?_append, List.findIdx?_cons, List.findIdx?_eq_none_iff.mpr]
  · simp
  · intro character isMember
    rw [decide_eq_false_iff_not]
    rintro rfl
    exact neutral isMember

theorem replaceAt_length (front rest serial : Text) (wildcard : Char) :
    replaceAt (front ++ wildcard :: rest) front.length serial =
      front ++ serial ++ rest := by
  unfold replaceAt
  simp

/-- The devices whose serial numbers take the place of the wildcard. -/
def TopicName.serials (dockSn aircraftSn : Text) : TopicName → List Text
  | osd => [aircraftSn, dockSn]
  | state => [aircraftSn]
  | _ => [dockSn]

/-- A wildcard is not found in front of the serial number. -/
theorem noWildcard_topicFront
    (neutral : ∀ segment ∈ prior ++ [last], Neutral segment) :
    '#' ∉ topicFront prior last ∧ '+' ∉ topicFront prior last := by
  constructor
  · intro isMember
    obtain isSlash | ⟨segment, isSegment, inside⟩ := mem_topicFront isMember
    · contradiction
    · exact (neutral segment isSegment).noHash inside
  · intro isMember
    obtain isSlash | ⟨segment, isSegment, inside⟩ := mem_topicFront isMember
    · contradiction
    · exact (neutral segment isSegment).noPlus inside

theorem template_eq (prior : List Text) (last : Text) (name : TopicName) :
    template prior last name =
      topicFront prior last ++ name.wildcard :: topicBack name := by
  unfold template
  rw [topic_eq_append, List.append_assoc]
  rfl

/-- Replacing the wildcard of the template puts the serial number there. -/
theorem replaceAt_template (prior : List Text) (last serial : Text)
    (name : TopicName) :
    replaceAt (template prior last name) (topicFront prior last).length
        serial =
      topic prior last serial name := by
  rw [template_eq, replaceAt_length, topic_eq_append]

/-- In a template with a plus sign there is no hash sign. -/
theorem findChar_hash_of_plus
    (neutral : ∀ segment ∈ prior ++ [last], Neutral segment)
    (isPlus : name.wildcard = '+') :
    findChar (template prior last name) '#' = none := by
  have noHash : '#' ∉ topicBack name := by
    cases name <;> decide
  unfold findChar
  rw [List.findIdx?_eq_none_iff]
  intro character isMember
  rw [decide_eq_false_iff_not]
  rintro rfl
  rw [template_eq, isPlus, List.mem_append, List.mem_cons] at isMember
  obtain inFront | isWildcard | inBack := isMember
  · exact (noWildcard_topicFront neutral).1 inFront
  · contradiction
  · exact noHash inBack

/-- The words that tell which devices have a topic are found only in its name.
-/
theorem finds_template_iff (word : Text) (name : TopicName)
    (neutral : ∀ segment ∈ prior ++ [last], Neutral segment)
    (plainWord : '/' ∉ word) (isWord : word ∈ routeWords) :
    Finds (template prior last name) word ↔
      word <:+: [name.wildcard] ∨
        ∃ segment ∈ name.segments, word <:+: segment := by
  apply finds_word_iff word name neutral _ plainWord isWord
  cases name <;> decide

/-- The topics for a template have the serial numbers of its devices. -/
theorem topicsOf_template (dockSn aircraftSn : Text)
    (neutral : ∀ segment ∈ prior ++ [last], Neutral segment) :
    topicsOf dockSn aircraftSn (template prior last name) =
      (name.serials dockSn aircraftSn).map fun serial =>
        topic prior last serial name := by
  obtain ⟨noHash, noPlus⟩ := noWildcard_topicFront neutral
  by_cases isHash : name.wildcard = '#'
  · have found : findChar (template prior last name) '#' =
        some (topicFront prior last).length := by
      rw [template_eq, isHash]
      exact findChar_template noHash
    unfold topicsOf
    rw [found]
    dsimp only
    rw [replaceAt_template]
    cases name <;> first | rfl | exact absurd isHash (by decide)
  · have isPlus : name.wildcard = '+' := by
      cases name <;> first | rfl | exact absurd rfl isHash
    have found : findChar (template prior last name) '+' =
        some (topicFront prior last).length := by
      rw [template_eq, isPlus]
      exact findChar_template noPlus
    have osd := finds_template_iff "osd".toList name neutral (by decide)
      (by decide)
    have state := finds_template_iff "state".toList name neutral (by decide)
      (by decide)
    unfold topicsOf
    rw [findChar_hash_of_plus neutral isPlus, found]
    dsimp only
    rw [replaceAt_template, replaceAt_template]
    cases name with
    | osd => exact if_pos (osd.mpr (by decide))
    | state =>
        refine (if_neg (mt osd.mp (by decide))).trans ?_
        exact if_pos (state.mpr (by decide))
    | _ => exact absurd rfl isHash

/-! ## The routes of a topic -/

/-- A serial number that is taken for the name of a topic with methods. -/
def Misleading (serial : Text) : Prop :=
  "services_reply".toList <:+: serial ∨ "events".toList <+: serial ∨
    "requests".toList <+: serial

/-- Messages on the topic carry a method. -/
def TopicName.HasMethod (name : TopicName) : Prop :=
  name = servicesReply ∨ name = events ∨ name = requests ∨ name = drcUp

/-- The topic has a part with a slash in front of a word. -/
theorem finds_slash_iff (second : Text) (name : TopicName)
    (neutral : ∀ segment ∈ prior ++ [last], Neutral segment)
    (plain : '/' ∉ serial) (plainSecond : '/' ∉ second)
    (isWord : second ∈ routeWords) :
    Finds (topic prior last serial name) ('/' :: second) ↔
      second <+: serial ∨ Occurs [[], second] (serial :: name.segments) := by
  have pair := finds_pair_iff [] second name neutral plain List.not_mem_nil
    plainSecond isWord
  rw [List.nil_append] at pair
  rw [pair]
  apply or_congr_left
  exact and_iff_right List.nil_suffix

/-- The drc topic is found in the drc topic only. -/
theorem finds_drcUp_iff
    (neutral : ∀ segment ∈ prior ++ [last], Neutral segment)
    (plain : '/' ∉ serial) :
    Finds (topic prior last serial name) "/drc/up".toList ↔
      name = .drcUp := by
  have pattern := finds_topic_iff [] ["drc".toList, "up".toList] name neutral
    plain (by decide)
  refine pattern.trans ?_
  rw [occurs_nil_append_iff, occurs_nil_cons_iff, occurs_nil_cons_iff]
  · cases name <;>
      simp [TopicName.segments, StartsWith, Occurs, occurs_nil_cons_iff]
  · intro segment isPrior rest starts
    unfold StartsWith at starts
    apply (neutral segment isPrior).noWord "drc".toList (by decide)
    rw [starts.1]

/-- The name of a reply is found in a serial number that holds it, and in the
reply topic. -/
theorem finds_servicesReply_iff
    (neutral : ∀ segment ∈ prior ++ [last], Neutral segment)
    (plain : '/' ∉ serial) :
    Finds (topic prior last serial name) "services_reply".toList ↔
      "services_reply".toList <:+: serial ∨ name = .servicesReply := by
  refine (finds_word_iff "services_reply".toList name neutral plain
    (by decide) (by decide)).trans ?_
  apply or_congr_right
  cases name <;> decide

/-- The name of an event is found where the serial number begins with it, and in
the event topic. -/
theorem finds_events_iff
    (neutral : ∀ segment ∈ prior ++ [last], Neutral segment)
    (plain : '/' ∉ serial) :
    Finds (topic prior last serial name) "/events".toList ↔
      "events".toList <+: serial ∨ name = .events := by
  refine (finds_slash_iff "events".toList name neutral plain (by decide)
    (by decide)).trans ?_
  apply or_congr_right
  cases name <;> simp [TopicName.segments, occurs_pair_cons_iff]

theorem finds_requests_iff
    (neutral : ∀ segment ∈ prior ++ [last], Neutral segment)
    (plain : '/' ∉ serial) :
    Finds (topic prior last serial name) "/requests".toList ↔
      "requests".toList <+: serial ∨ name = .requests := by
  refine (finds_slash_iff "requests".toList name neutral plain (by decide)
    (by decide)).trans ?_
  apply or_congr_right
  cases name <;> simp [TopicName.segments, occurs_pair_cons_iff]

/-- The topic has messages with methods by its name or by its serial number. -/
theorem hasMethod_topic_iff
    (neutral : ∀ segment ∈ prior ++ [last], Neutral segment)
    (plain : '/' ∉ serial) :
    HasMethod (topic prior last serial name) ↔
      Misleading serial ∨ name.HasMethod := by
  unfold HasMethod Misleading TopicName.HasMethod
  rw [finds_servicesReply_iff neutral plain, finds_events_iff neutral plain,
    finds_requests_iff neutral plain, finds_drcUp_iff neutral plain]
  constructor
  · rintro ((word | isName) | (word | isName) | (word | isName) | isName)
    · exact .inl (.inl word)
    · exact .inr (.inl isName)
    · exact .inl (.inr (.inl word))
    · exact .inr (.inr (.inl isName))
    · exact .inl (.inr (.inr word))
    · exact .inr (.inr (.inr (.inl isName)))
    · exact .inr (.inr (.inr (.inr isName)))
  · rintro ((word | word | word) | isName | isName | isName | isName)
    · exact .inl (.inl word)
    · exact .inr (.inl (.inl word))
    · exact .inr (.inr (.inl (.inl word)))
    · exact .inl (.inr isName)
    · exact .inr (.inl (.inr isName))
    · exact .inr (.inr (.inl (.inr isName)))
    · exact .inr (.inr (.inr isName))

/-- A part with the name of a property is found where a device has a topic for
it, or around the serial number. -/
theorem finds_osd_iff (first : Text) (name : TopicName)
    (neutral : ∀ segment ∈ prior ++ [last], Neutral segment)
    (plain : '/' ∉ serial) (plainFirst : '/' ∉ first) :
    Finds (topic prior last serial name) (first ++ "/osd".toList) ↔
      (first <:+ last ∧ "osd".toList <+: serial) ∨
        first <:+ serial ∧ name = .osd := by
  refine (finds_pair_iff first "osd".toList name neutral plain plainFirst
    (by decide) (by decide)).trans ?_
  apply or_congr_right
  cases name <;> simp [TopicName.segments, occurs_pair_cons_iff]

theorem finds_state_iff (first : Text) (name : TopicName)
    (neutral : ∀ segment ∈ prior ++ [last], Neutral segment)
    (plain : '/' ∉ serial) (plainFirst : '/' ∉ first) :
    Finds (topic prior last serial name) (first ++ "/state".toList) ↔
      (first <:+ last ∧ "state".toList <+: serial) ∨
        first <:+ serial ∧ name = .state := by
  refine (finds_pair_iff first "state".toList name neutral plain plainFirst
    (by decide) (by decide)).trans ?_
  apply or_congr_right
  cases name <;> simp [TopicName.segments, occurs_pair_cons_iff]

/-- The names of the topics for control are found only there. -/
theorem finds_control_iff (first second : Text) (name : TopicName)
    (neutral : ∀ segment ∈ prior ++ [last], Neutral segment)
    (plain : '/' ∉ serial) (plainFirst : '/' ∉ first)
    (plainSecond : '/' ∉ second)
    (areWords : first ∈ routeWords ∧ second ∈ routeWords) :
    Finds (topic prior last serial name) (first ++ '/' :: second) ↔
      Occurs [first, second] (serial :: name.segments) := by
  refine (finds_pair_iff first second name neutral plain plainFirst
    plainSecond areWords.2).trans ?_
  apply or_iff_right
  rintro ⟨isSuffix, -⟩
  exact (neutral last (by simp)).noWord first areWords.1 isSuffix.isInfix

section Control

variable (neutral : ∀ segment ∈ prior ++ [last], Neutral segment)
  (plain : '/' ∉ serial)

include neutral plain

theorem finds_flight_iff :
    Finds (topic prior last serial name) "flight/control".toList ↔
      name = .flightControl := by
  refine (finds_control_iff "flight".toList "control".toList name neutral
    plain (by decide) (by decide) (by decide)).trans ?_
  cases name <;> simp [TopicName.segments, occurs_pair_cons_iff]
  decide

theorem finds_gimbal_iff :
    Finds (topic prior last serial name) "gimbal/control".toList ↔
      name = .gimbalControl := by
  refine (finds_control_iff "gimbal".toList "control".toList name neutral
    plain (by decide) (by decide) (by decide)).trans ?_
  cases name <;> simp [TopicName.segments, occurs_pair_cons_iff]
  decide

theorem finds_camera_iff :
    Finds (topic prior last serial name) "camera/zoom".toList ↔
      name = .cameraZoom := by
  refine (finds_control_iff "camera".toList "zoom".toList name neutral
    plain (by decide) (by decide) (by decide)).trans ?_
  cases name <;> simp [TopicName.segments, occurs_pair_cons_iff]

end Control

/-! ## Serial numbers -/

/-- The serial numbers do not look like names, the one of the aircraft does not
end the one of the dock, and if it ends the segment in front then the other one
does not look like the name of a property. -/
structure Distinguished (last dockSn aircraftSn : Text) : Prop where
  aircraft : ¬Misleading aircraftSn
  dock : ¬Misleading dockSn
  notSuffix : ¬aircraftSn <:+ dockSn
  behindLast : aircraftSn <:+ last →
    ¬"osd".toList <+: dockSn ∧ ¬"state".toList <+: dockSn

/-- The serial numbers whose topics for a template get where they belong. -/
def TopicName.Distinguishes (last dockSn aircraftSn : Text) : TopicName → Prop
  | servicesReply | events | requests | drcUp => True
  | osd => Distinguished last dockSn aircraftSn
  | state => ¬Misleading aircraftSn
  | flightControl | gimbalControl | cameraZoom =>
      ¬Misleading dockSn ∧ (aircraftSn <:+ last →
        ¬"osd".toList <+: dockSn ∧ ¬"state".toList <+: dockSn)

/-- The messages of the topics for the templates of one file get where they
belong. -/
def RoutesFile (prior : List Text) (last dockSn aircraftSn : Text)
    (names : List TopicName) : Prop :=
  ∀ method : String,
    (loadSubTopics dockSn aircraftSn
        (names.map (template prior last))).map
      (onRead dockSn aircraftSn method) =
      names.flatMap (TopicName.destinations method)

/-- The messages of all topics get where they belong, whatever the templates. -/
def RoutesCorrectly (prior : List Text) (last dockSn aircraftSn : Text) :
    Prop :=
  ∀ (method : String) (names : List TopicName),
    (loadSubTopics dockSn aircraftSn
        (names.map (template prior last))).map
      (onRead dockSn aircraftSn method) =
      names.flatMap (TopicName.destinations method)

variable {dockSn aircraftSn : Text}

/-- Of a serial number that ends a neutral segment no beginning is a word. -/
theorem not_prefix_of_suffix {word : Text} (neutral : Neutral last)
    (isWord : word ∈ routeWords) (isSuffix : serial <:+ last) :
    ¬word <+: serial :=
  fun isPrefix =>
    neutral.noWord word isWord (isPrefix.isInfix.trans isSuffix.isInfix)

/-- A topic of the aircraft gets where it belongs. -/
theorem onRead_aircraft (dockSn : Text) (method : String)
    (neutral : ∀ segment ∈ prior ++ [last], Neutral segment)
    (plain : '/' ∉ aircraftSn) (isPlain : ¬Misleading aircraftSn) :
    onRead dockSn aircraftSn method (topic prior last aircraftSn .osd) =
        [(.COMMON_REG_IND, .MODULE_TRACK)] ∧
      onRead dockSn aircraftSn method (topic prior last aircraftSn .state) =
        [(.TRACK_STATE_DATA_IND, .MODULE_TRACK)] := by
  have neutralLast : Neutral last := neutral last (by simp)
  have noMethod : ∀ name : TopicName, ¬name.HasMethod →
      ¬HasMethod (topic prior last aircraftSn name) := by
    intro name isOther
    rw [hasMethod_topic_iff neutral plain]
    exact not_or.mpr ⟨isPlain, isOther⟩
  constructor
  · unfold onRead
    rw [if_neg (noMethod .osd (by simp [TopicName.HasMethod]))]
    apply if_pos
    rw [finds_osd_iff _ _ neutral plain plain]
    exact .inr ⟨List.suffix_refl _, rfl⟩
  · unfold onRead
    rw [if_neg (noMethod .state (by simp [TopicName.HasMethod])), if_neg]
    · apply if_pos
      rw [finds_state_iff _ _ neutral plain plain]
      exact .inr ⟨List.suffix_refl _, rfl⟩
    · rw [finds_osd_iff _ _ neutral plain plain]
      rintro (⟨isSuffix, isPrefix⟩ | ⟨-, impossible⟩)
      · exact not_prefix_of_suffix neutralLast (by decide) isSuffix isPrefix
      · contradiction

/-- A topic of the dock is not taken for one of the aircraft. -/
theorem onRead_dock (method : String) (name : TopicName)
    (neutral : ∀ segment ∈ prior ++ [last], Neutral segment)
    (plainDock : '/' ∉ dockSn) (plainAircraft : '/' ∉ aircraftSn)
    (isPlain : ¬Misleading dockSn)
    (notSuffix : name = .osd → ¬aircraftSn <:+ dockSn)
    (behindLast : aircraftSn <:+ last →
      ¬"osd".toList <+: dockSn ∧ ¬"state".toList <+: dockSn)
    (notState : name ≠ .state) (notMethod : ¬name.HasMethod) :
    onRead dockSn aircraftSn method (topic prior last dockSn name) =
      if name = .osd then [(.COMMON_REG_IND, .MODULE_DEVICE)]
      else if name = .flightControl then [(.COMMON_REG_IND, .MODULE_FLYTO)]
      else if name = .gimbalControl then
        [(.PAYLOAD_GIMBAL_DATA_IND, .MODULE_PAYLOAD)]
      else if name = .cameraZoom then
        [(.PAYLOAD_CAMERA_DATA_IND, .MODULE_PAYLOAD)]
      else [] := by
  have neutralLast : Neutral last := neutral last (by simp)
  unfold onRead
  rw [if_neg, if_neg, if_neg]
  · apply if_congr _ rfl
    · apply if_congr (finds_flight_iff neutral plainDock) rfl
      apply if_congr (finds_gimbal_iff neutral plainDock) rfl
      exact if_congr (finds_camera_iff neutral plainDock) rfl rfl
    · rw [finds_osd_iff _ _ neutral plainDock plainDock]
      constructor
      · rintro (⟨isSuffix, isPrefix⟩ | ⟨-, isOsd⟩)
        · exact absurd isPrefix
            (not_prefix_of_suffix neutralLast (by decide) isSuffix)
        · exact isOsd
      · intro isOsd
        exact .inr ⟨List.suffix_refl _, isOsd⟩
  · rw [finds_state_iff _ _ neutral plainDock plainAircraft]
    rintro (⟨isSuffix, isPrefix⟩ | ⟨-, isState⟩)
    · exact (behindLast isSuffix).2 isPrefix
    · exact notState isState
  · rw [finds_osd_iff _ _ neutral plainDock plainAircraft]
    rintro (⟨isSuffix, isPrefix⟩ | ⟨isSuffix, isOsd⟩)
    · exact (behindLast isSuffix).1 isPrefix
    · exact notSuffix isOsd isSuffix
  · rw [hasMethod_topic_iff neutral plainDock]
    exact not_or.mpr ⟨isPlain, notMethod⟩

theorem onRead_of_hasMethod (method : String)
    (neutral : ∀ segment ∈ prior ++ [last], Neutral segment)
    (plain : '/' ∉ serial) (hasMethod : name.HasMethod) :
    onRead dockSn aircraftSn method (topic prior last serial name) =
      handleMethod method :=
  if_pos ((hasMethod_topic_iff neutral plain).mpr (.inr hasMethod))

/-- A topic whose messages without a method are copied is none of those that
have methods. -/
theorem not_misleading_of_onRead {copy : MsgId × Module}
    (neutral : ∀ segment ∈ prior ++ [last], Neutral segment)
    (plain : '/' ∉ serial)
    (isCopy : onRead dockSn aircraftSn "" (topic prior last serial name) =
      [copy]) :
    ¬HasMethod (topic prior last serial name) ∧ ¬Misleading serial := by
  have notMethod : ¬HasMethod (topic prior last serial name) := by
    intro hasMethod
    unfold onRead at isCopy
    rw [if_pos hasMethod] at isCopy
    have unknown : handleMethod "" = [] := rfl
    exact List.cons_ne_nil copy [] (isCopy.symm.trans unknown)
  refine ⟨notMethod, ?_⟩
  intro misleading
  exact notMethod ((hasMethod_topic_iff neutral plain).mpr (.inl misleading))

/-- A topic of the dock whose messages are not taken for those of the aircraft
tells of both serial numbers. -/
theorem distinguished_of_onRead {copy : MsgId × Module}
    (neutral : ∀ segment ∈ prior ++ [last], Neutral segment)
    (plainDock : '/' ∉ dockSn) (plainAircraft : '/' ∉ aircraftSn)
    (notTrack : copy.2 ≠ .MODULE_TRACK)
    (isCopy : onRead dockSn aircraftSn "" (topic prior last dockSn name) =
      [copy]) :
    ¬Misleading dockSn ∧ (name = .osd → ¬aircraftSn <:+ dockSn) ∧
      (aircraftSn <:+ last →
        ¬"osd".toList <+: dockSn ∧ ¬"state".toList <+: dockSn) := by
  obtain ⟨notMethod, isPlain⟩ :=
    not_misleading_of_onRead neutral plainDock isCopy
  have other : ∀ id : MsgId, [(id, Module.MODULE_TRACK)] ≠ [copy] := by
    rintro id same
    injection same with same
    exact notTrack (congrArg Prod.snd same).symm
  have notOsd : ¬Finds (topic prior last dockSn name)
      (aircraftSn ++ "/osd".toList) := by
    intro found
    unfold onRead at isCopy
    rw [if_neg notMethod, if_pos found] at isCopy
    exact other _ isCopy
  have notState : ¬Finds (topic prior last dockSn name)
      (aircraftSn ++ "/state".toList) := by
    intro found
    unfold onRead at isCopy
    rw [if_neg notMethod, if_neg notOsd, if_pos found] at isCopy
    exact other _ isCopy
  rw [finds_osd_iff _ _ neutral plainDock plainAircraft] at notOsd
  rw [finds_state_iff _ _ neutral plainDock plainAircraft] at notState
  refine ⟨isPlain, ?_, ?_⟩
  · intro isOsd isSuffix
    exact notOsd (.inr ⟨isSuffix, isOsd⟩)
  · intro isSuffix
    exact ⟨fun isPrefix => notOsd (.inl ⟨isSuffix, isPrefix⟩),
      fun isPrefix => notState (.inl ⟨isSuffix, isPrefix⟩)⟩

/-- The topics for a template get where they belong exactly if it distinguishes
the serial numbers. -/
theorem onRead_eq_destinations_iff (name : TopicName)
    (neutral : ∀ segment ∈ prior ++ [last], Neutral segment)
    (plainDock : '/' ∉ dockSn) (plainAircraft : '/' ∉ aircraftSn) :
    (∀ method : String, (name.serials dockSn aircraftSn).map
        (fun serial => onRead dockSn aircraftSn method
          (topic prior last serial name)) = name.destinations method) ↔
      name.Distinguishes last dockSn aircraftSn := by
  have one : ∀ {copies other : Copies}, [copies] = [other] ↔ copies = other :=
    List.singleton_inj
  cases name with
  | servicesReply | events | requests | drcUp =>
      refine iff_of_true ?_ trivial
      intro method
      apply one.mpr
      apply onRead_of_hasMethod method neutral plainDock
      simp [TopicName.HasMethod]
  | osd =>
      constructor
      · intro correct
        have both := correct ""
        simp only [TopicName.serials, TopicName.destinations, List.map_cons,
          List.map_nil, List.cons.injEq, and_true] at both
        obtain ⟨aircraft, dock⟩ := both
        obtain ⟨isPlain, notSuffix, behindLast⟩ :=
          distinguished_of_onRead neutral plainDock plainAircraft (by decide)
            dock
        exact ⟨(not_misleading_of_onRead neutral plainAircraft aircraft).2,
          isPlain, notSuffix rfl, behindLast⟩
      · intro distinguished method
        have aircraft := onRead_aircraft dockSn method neutral plainAircraft
          distinguished.aircraft
        have dock := onRead_dock method .osd neutral plainDock plainAircraft
          distinguished.dock (fun _ => distinguished.notSuffix)
          distinguished.behindLast (by decide) (by simp [TopicName.HasMethod])
        simp only [TopicName.serials, TopicName.destinations, List.map_cons,
          List.map_nil]
        rw [aircraft.1, dock]
        rfl
  | state =>
      constructor
      · intro correct
        exact (not_misleading_of_onRead neutral plainAircraft
          (one.mp (correct ""))).2
      · intro isPlain method
        exact one.mpr
          (onRead_aircraft dockSn method neutral plainAircraft isPlain).2
  | flightControl | gimbalControl | cameraZoom =>
      constructor
      · intro correct
        obtain ⟨isPlain, -, behindLast⟩ :=
          distinguished_of_onRead neutral plainDock plainAircraft (by decide)
            (one.mp (correct ""))
        exact ⟨isPlain, behindLast⟩
      · rintro ⟨isPlain, behindLast⟩ method
        exact one.mpr (onRead_dock method _ neutral plainDock plainAircraft
          isPlain nofun behindLast (by decide)
          (by simp [TopicName.HasMethod]))

/-- The topics of a file are those of its templates. -/
theorem map_loadSubTopics (method : String) (names : List TopicName)
    (neutral : ∀ segment ∈ prior ++ [last], Neutral segment) :
    (loadSubTopics dockSn aircraftSn
        (names.map (template prior last))).map
      (onRead dockSn aircraftSn method) =
      names.flatMap fun name =>
        (name.serials dockSn aircraftSn).map fun serial =>
          onRead dockSn aircraftSn method (topic prior last serial name) := by
  unfold loadSubTopics
  rw [List.flatMap_map, List.map_flatMap]
  apply List.flatMap_congr
  intro name _
  rw [topicsOf_template dockSn aircraftSn neutral, List.map_map]
  rfl

/-- There is a destination for every topic for a template. -/
theorem TopicName.length_destinations (method : String) (name : TopicName) :
    (name.serials dockSn aircraftSn).length =
      (name.destinations method).length := by
  cases name <;> rfl

/-- The templates of a file can be looked at one by one. -/
theorem routesFile_iff_forall (names : List TopicName)
    (neutral : ∀ segment ∈ prior ++ [last], Neutral segment) :
    RoutesFile prior last dockSn aircraftSn names ↔
      ∀ name ∈ names, ∀ method : String,
        (name.serials dockSn aircraftSn).map
            (fun serial => onRead dockSn aircraftSn method
              (topic prior last serial name)) =
          name.destinations method := by
  unfold RoutesFile
  simp only [map_loadSubTopics _ _ neutral]
  induction names with
  | nil => simp
  | cons name names inductionHypothesis =>
      rw [List.forall_mem_cons, ← inductionHypothesis, ← forall_and]
      apply forall_congr'
      intro method
      rw [List.flatMap_cons, List.flatMap_cons]
      constructor
      · intro same
        apply List.append_inj same
        rw [List.length_map]
        exact name.length_destinations method
      · rintro ⟨first, rest⟩
        rw [first, rest]

/-- The topics for the properties tell everything. -/
theorem forall_distinguishes_iff :
    (∀ name : TopicName, name.Distinguishes last dockSn aircraftSn) ↔
      Distinguished last dockSn aircraftSn := by
  constructor
  · intro all
    exact all .osd
  · intro distinguished name
    cases name with
    | servicesReply | events | requests | drcUp => trivial
    | osd => exact distinguished
    | state => exact distinguished.aircraft
    | flightControl | gimbalControl | cameraZoom =>
        exact ⟨distinguished.dock, distinguished.behindLast⟩

/-- Which pairs of serial numbers are routed correctly behind given segments. -/
theorem routesCorrectly_iff (prior : List Text) (last dockSn aircraftSn : Text)
    (neutral : ∀ segment ∈ prior ++ [last], Neutral segment)
    (plainDock : '/' ∉ dockSn) (plainAircraft : '/' ∉ aircraftSn) :
    RoutesCorrectly prior last dockSn aircraftSn ↔
      Distinguished last dockSn aircraftSn := by
  rw [← forall_distinguishes_iff]
  have byFile : RoutesCorrectly prior last dockSn aircraftSn ↔
      ∀ names, RoutesFile prior last dockSn aircraftSn names :=
    forall_comm
  rw [byFile]
  simp only [routesFile_iff_forall _ neutral,
    onRead_eq_destinations_iff _ neutral plainDock plainAircraft]
  constructor
  · intro all name
    exact all [name] name List.mem_cons_self
  · intro all names name _
    exact all name

theorem neutral_thingProduct :
    ∀ segment ∈ ["thing".toList] ++ ["product".toList], Neutral segment := by
  intro segment isMember
  obtain rfl | isLast := List.mem_cons.mp isMember
  · exact ⟨by decide, by decide, by decide, by decide⟩
  · obtain rfl := List.mem_singleton.mp isLast
    exact ⟨by decide, by decide, by decide, by decide⟩

/-- A serial number of the aircraft that ends the other one is enough to go
wrong. -/
theorem routesCorrectly_thingProduct :
    RoutesCorrectly ["thing".toList] "product".toList "7CT42".toList
        "1581F".toList ∧
      ¬RoutesCorrectly ["thing".toList] "product".toList "7CT42".toList
        "42".toList := by
  constructor
  · rw [routesCorrectly_iff _ _ _ _ neutral_thingProduct (by decide)
      (by decide)]
    refine ⟨?_, ?_, by decide, ?_⟩
    · unfold Misleading
      decide
    · unfold Misleading
      decide
    · intro isSuffix
      exact absurd isSuffix (by decide)
  · rw [routesCorrectly_iff _ _ _ _ neutral_thingProduct (by decide)
      (by decide)]
    intro distinguished
    exact distinguished.notSuffix (by decide)

/-- The templates of the two properties and of the control of the flight. -/
def propertyNames : List TopicName := [.osd, .state, .flightControl]

end Mqtt
end Pilot2Cloud
