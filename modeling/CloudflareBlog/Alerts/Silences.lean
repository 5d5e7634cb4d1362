import CloudflareBlog.Lib.KeyedFold

/-!
# The matchers of silences

A silence of Alertmanager has a list of matchers, and `silences_remap` stores them as an object: the
name of a label is the key, and the operator in front of the value is its text.  An object has one
text for a name, so of several matchers for one label the last remains.  The operator of a negated
regular expression is written as "!=~", which begins with another operator; and a value that begins
with a tilde makes "=" look like "=~" (`survives_iff`).

Text is a list of characters.  What the rest of the program does to the event, such as to its times,
does not touch the matchers.
-/

namespace CloudflareBlog.Alerts

open CloudflareBlog.Lib.KeyedFold

abbrev Text := List Char

/-- A matcher as Alertmanager sends it. -/
structure Matcher where
  name : Text
  value : Text
  isEqual : Bool
  isRegex : Bool
  deriving DecidableEq

/-! ## `silences_remap` -/

/-- `|=` on objects: the right one wins. -/
def merge (left right : Object Text Text) : Object Text Text := right ∪ left

/-- The body of `for_each`, for the field `.match` and the matcher that is copied to `.mid`. -/
def addMatcher (found : Object Text Text) (mid : Matcher) : Object Text Text :=
  let obj : Object Text Text := ∅
  let eq : Text := if mid.isEqual then ['='] else ['!', '=']
  let reg : Text := if mid.isRegex then ['~'] else []
  let n := mid.name
  let v := eq ++ reg ++ mid.value
  merge found (obj.insert n v)

structure Stored where
  matchers : Object Text Text
  matchersString : Text

/-- The transform, with `encode_key_value` of the language's library. -/
def silencesRemap (encodeKeyValue : Object Text Text → Text) (matchers : List Matcher) : Stored :=
  let found := matchers.foldl addMatcher ∅
  { matchers := found, matchersString := encodeKeyValue found }

/-! ## Reading the matchers back -/

inductive Operator where
  | equal
  | notEqual
  | regex
  | notRegex
  deriving DecidableEq

def Operator.text : Operator → Text
  | equal => ['=']
  | notEqual => ['!', '=']
  | regex => ['=', '~']
  | notRegex => ['!', '~']

def Matcher.operator (matcher : Matcher) : Operator :=
  match matcher.isEqual, matcher.isRegex with
  | true, false => .equal
  | false, false => .notEqual
  | true, true => .regex
  | false, true => .notRegex

/-- What a matcher asks of a label. -/
structure Constraint where
  name : Text
  operator : Operator
  value : Text
  deriving DecidableEq

def Matcher.constraint (matcher : Matcher) : Constraint :=
  ⟨matcher.name, matcher.operator, matcher.value⟩

/-- The operator in front of a text, the longest that is there, and the value behind it. -/
def readText : Text → Option (Operator × Text)
  | '=' :: '~' :: value => some (.regex, value)
  | '!' :: '~' :: value => some (.notRegex, value)
  | '!' :: '=' :: value => some (.notEqual, value)
  | '=' :: value => some (.equal, value)
  | _ => none

def readEntry (entry : Entry Text Text) : Option Constraint := do
  let (operator, value) ← readText entry.2
  return ⟨entry.1, operator, value⟩

/-- The matchers are those that the stored object says, and as many of each. -/
def Survives (encodeKeyValue : Object Text Text → Text) (matchers : List Matcher) : Prop :=
  (silencesRemap encodeKeyValue matchers).matchers.entries.map readEntry =
    (matchers.map fun matcher => some matcher.constraint : Multiset (Option Constraint))

/-- The matchers whose text is read as what they are. -/
def Readable (matcher : Matcher) : Prop :=
  matcher.operator ≠ .notRegex ∧ (matcher.operator = .equal → matcher.value.head? ≠ some '~')

/-! ## What is stored -/

def Matcher.entry (matcher : Matcher) : Entry Text Text :=
  ⟨matcher.name, (if matcher.isEqual then ['='] else ['!', '=']) ++
    (if matcher.isRegex then ['~'] else []) ++ matcher.value⟩

theorem addMatcher_eq (found : Object Text Text) (mid : Matcher) :
    addMatcher found mid = found.insert mid.entry.1 mid.entry.2 := by
  rw [addMatcher, merge, ← Finmap.insert_union, Finmap.empty_union]
  rfl

theorem foldl_addMatcher (found : Object Text Text) (matchers : List Matcher) :
    matchers.foldl addMatcher found = collect found (matchers.map Matcher.entry) := by
  rw [collect, List.foldl_map]
  exact List.foldl_ext _ _ _ fun found mid _ => addMatcher_eq found mid

theorem names_eq (matchers : List Matcher) :
    (matchers.map Matcher.entry).map Sigma.fst = matchers.map Matcher.name := by
  rw [List.map_map]
  rfl

/-- A matcher leaves no trace if there is another for the same label behind it. -/
theorem silencesRemap_shadowed (encodeKeyValue : Object Text Text → Text)
    (before after : List Matcher) {matcher : Matcher} (again : matcher.name ∈ after.map Matcher.name) :
    silencesRemap encodeKeyValue (before ++ matcher :: after) =
      silencesRemap encodeKeyValue (before ++ after) := by
  rw [← names_eq] at again
  rw [silencesRemap, silencesRemap]
  simp only [List.foldl_append, foldl_addMatcher, List.map_cons,
    collect_shadowed _ matcher.entry again]

/-- A regular expression leaves the same trace as a value that begins with a tilde. -/
theorem addMatcher_tilde (found : Object Text Text) (name value : Text) (isEqual : Bool) :
    addMatcher found ⟨name, value, isEqual, true⟩ =
      addMatcher found ⟨name, '~' :: value, isEqual, false⟩ := by
  cases isEqual <;> rfl

theorem readEntry_name {entry : Entry Text Text} {read : Constraint}
    (reads : readEntry entry = some read) : read.name = entry.1 := by
  rw [readEntry, Option.bind_eq_bind, Option.bind_eq_some_iff] at reads
  obtain ⟨parts, -, reads⟩ := reads
  rw [← Option.some.inj reads]

theorem readEntry_iff (matcher : Matcher) :
    readEntry matcher.entry = some matcher.constraint ↔ Readable matcher := by
  obtain ⟨name, value, isEqual, isRegex⟩ := matcher
  cases isRegex with
  | true =>
    -- "=~" is read as it is meant, and "!=~" as "!="
    cases isEqual <;> simp [Matcher.entry, readEntry, readText, Matcher.constraint,
      Matcher.operator, Readable]
  | false =>
    cases isEqual with
    | false =>
      simp [Matcher.entry, readEntry, readText, Matcher.constraint, Matcher.operator, Readable]
    | true =>
      by_cases tilde : value.head? = some '~'
      · obtain ⟨rest, rfl⟩ := List.head?_eq_some_iff.mp tilde
        simp [Matcher.entry, readEntry, readText, Matcher.constraint, Matcher.operator, Readable]
      · cases value with
        | nil =>
          simp [Matcher.entry, readEntry, readText, Matcher.constraint, Matcher.operator, Readable]
        | cons c rest =>
          rw [List.head?_cons, Option.some_inj] at tilde
          simp [Matcher.entry, readEntry, readText, Matcher.constraint, Matcher.operator, Readable,
            tilde]

/-- The matchers of a silence can be read from what is stored if and only if they are for different
labels and each of them is readable. -/
theorem survives_iff (encodeKeyValue : Object Text Text → Text) (matchers : List Matcher) :
    Survives encodeKeyValue matchers ↔
      (matchers.map Matcher.name).Nodup ∧ ∀ matcher ∈ matchers, Readable matcher := by
  rw [Survives, silencesRemap]
  simp only [foldl_addMatcher]
  constructor
  · intro survives
    -- An object with fewer entries than there are matchers cannot say as many of each.
    have distinct : (matchers.map Matcher.name).Nodup := by
      have card := congrArg Multiset.card survives
      rw [Multiset.card_map, Multiset.coe_card, List.length_map] at card
      rw [← names_eq]
      exact (card_collect_iff _).mp (by rw [card, List.length_map])
    rw [entries_collect_empty (by rw [names_eq]; exact distinct)] at survives
    refine ⟨distinct, fun matcher among => ?_⟩
    have read : some matcher.constraint ∈
        (matchers.map fun matcher => some matcher.constraint : Multiset (Option Constraint)) :=
      Multiset.mem_coe.mpr (List.mem_map.mpr ⟨matcher, among, rfl⟩)
    rw [← survives, Multiset.mem_map] at read
    obtain ⟨entry, isEntry, reads⟩ := read
    obtain ⟨other, otherAmong, rfl⟩ := List.mem_map.mp (Multiset.mem_coe.mp isEntry)
    -- the entry that is read as this matcher has its name, so it is its own
    obtain rfl : other = matcher :=
      List.inj_on_of_nodup_map distinct otherAmong among (readEntry_name reads).symm
    exact (readEntry_iff other).mp reads
  · intro readable
    obtain ⟨distinct, readable⟩ := readable
    rw [entries_collect_empty (by rw [names_eq]; exact distinct), Multiset.map_coe, List.map_map]
    congr 1
    exact List.map_congr_left fun matcher among => (readEntry_iff matcher).mpr (readable matcher among)

/-- The silence with `env=~"prod.*"` and `env!="prod-eu"`. -/
def twoForEnv : List Matcher :=
  [⟨['e', 'n', 'v'], ['p', 'r', 'o', 'd', '.', '*'], true, true⟩,
    ⟨['e', 'n', 'v'], ['p', 'r', 'o', 'd', '-', 'e', 'u'], false, false⟩]

/-- What `encode_key_value` makes of the object that is stored for it. -/
def envString : Text :=
  ['e', 'n', 'v', '=', '"', '!', '=', 'p', 'r', 'o', 'd', '-', 'e', 'u', '"']

/-- Only the second matcher is stored, as if the silence had no other. -/
theorem not_survives_twoForEnv :
    ¬ Survives (fun _ => envString) twoForEnv ∧
      silencesRemap (fun _ => envString) twoForEnv =
        silencesRemap (fun _ => envString) twoForEnv.tail := by
  constructor
  · intro survives
    have card := congrArg Multiset.card survives
    revert card
    decide
  · exact silencesRemap_shadowed _ [] _ (by decide)

end CloudflareBlog.Alerts
