import Mathlib.Data.List.Forall2
import Rollup.Proofs.Groups
import Rollup.Proofs.Json.Denotes
import Rollup.Proofs.Sorting
import Rollup.Proofs.Store.Evolution

/-!
Documents can be read again. Main statement: a reader takes a document in full and finds in it,
for each series whose reducer is known, its name, the points of its view and its tags.
-/

namespace Rollup.Json

/-- Only an unknown reducer keeps a series out of a document. -/
def isShown (s : Series) : Bool :=
  match s.aggregated.1 with
  | .error (.unknownReducer _) => false
  | _ => true

/-- Every key has one value, a text. -/
structure IsTextMap (tags : Tags) : Prop where
  texts : tags.allText = true
  keys : (tags.map (·.1)).Nodup

/-- The value is a point: a number for a finite sample and null for any other, then its time. -/
def IsPoint (p : Sample × Int) (v : Value) : Prop :=
  ∃ first, v = .array [first, .number (.ofInt p.2)] ∧
    (p.1.isFinite = false → first = .null) ∧
    (p.1.isFinite = true → ∃ n, first = .number n ∧ n.toSample = p.1)

/-- The entries are the tags, in the order of their keys, with each text as it is read. -/
def IsSorted (reading : Text → Text) (tags : Tags) (entries : List (Text × Value)) : Prop :=
  ∃ sorted : List (Text × Text),
    entries = sorted.map (fun e => (reading e.1, .text (reading e.2))) ∧
    tags.Perm (sorted.map fun e => (e.1, .text e.2)) ∧
    sorted.Pairwise fun a b => a.1 < b.1

/-- The value says all that an entry holds. -/
def Entry.Shows (e : Entry) (v : Value) : Prop :=
  ∃ points tags, List.Forall₂ IsPoint e.points points ∧ IsSorted joined e.tags tags ∧
    v = .object [("target", .text (joined e.target)), ("datapoints", .array points),
      ("tags", .object tags)]

/-- A reader takes the text in full and finds the entries in it, in order. -/
def Reads (text : List Char) (entries : List Entry) : Prop :=
  (∀ e ∈ entries, IsTextMap e.tags) → ∃ objects, read text = some (.array objects) ∧
    List.Forall₂ Entry.Shows entries objects

/-- The value says of a series all that a document should, with each text as it is read. -/
def Describes (reading : Text → Text) (s : Series) (v : Value) : Prop :=
  ∃ view times points tags,
    s.aggregated.1 = .ok view ∧ s.aggregatedTimestamps.1 = .ok times ∧
    times.length = view.length ∧ points.length = view.length ∧
    List.Forall₂ IsPoint (view.zip times) points ∧ IsSorted reading s.tags tags ∧
    v = .object [("target", .text (reading s.name)), ("datapoints", .array points),
      ("tags", .object tags)]

/-- A map of texts that are read as they are. -/
structure IsPlainMap (tags : Tags) : Prop extends IsTextMap tags where
  plain : ∀ key value, (key, .text value) ∈ tags → Unpaired key ∧ Unpaired value

/-- A series whose texts are read as they are. -/
structure IsPlain (s : Series) : Prop where
  name : Unpaired s.name
  tags : IsPlainMap s.tags

/-- Whether the name and the tags are made of characters, and the tags are a map of texts. -/
def isScalar (s : Series) : Bool :=
  s.name.isScalar && decide (s.tags.map (·.1)).Nodup && s.tags.all fun t =>
    match t.2 with
    | .text value => t.1.isScalar && value.isScalar
    | _ => false

theorem unpaired_of_isScalar {s : Text} (scalar : s.isScalar = true) : Unpaired s := by
  obtain ⟨chars, rfl⟩ := Text.eq_ofChars_of_isScalar scalar
  exact unpaired_ofChars chars

/-- Halves of pairs are all that a text can be read wrongly for. -/
theorem isPlain_of_isScalar {s : Series} (scalar : isScalar s = true) : IsPlain s := by
  simp only [isScalar, Bool.and_eq_true, decide_eq_true_eq, List.all_eq_true] at scalar
  obtain ⟨⟨name, keys⟩, texts⟩ := scalar
  refine ⟨unpaired_of_isScalar name, ⟨?_, keys⟩, fun key value member => ?_⟩
  · rw [Tags.allText, List.all_eq_true]
    rintro ⟨key, value⟩ member
    have text := texts _ member
    cases value with
    | text value => rfl
    | _ => cases text
  · have both := texts _ member
    simp only [Bool.and_eq_true] at both
    exact ⟨unpaired_of_isScalar both.1, unpaired_of_isScalar both.2⟩

theorem IsSorted.plain {tags : Tags} {entries : List (Text × Value)}
    (sorted : IsSorted joined tags entries) (plain : IsPlainMap tags) :
    IsSorted id tags entries := by
  obtain ⟨pairs, rfl, perm, ascending⟩ := sorted
  refine ⟨pairs, ?_, perm, ascending⟩
  apply List.map_congr_left
  intro e member
  have texts := plain.plain e.1 e.2 (perm.mem_iff.mpr (List.mem_map_of_mem member))
  rw [joined_of_unpaired texts.1, joined_of_unpaired texts.2]
  rfl

theorem Describes.plain {s : Series} {v : Value} (describes : Describes joined s v)
    (plain : IsPlain s) : Describes id s v := by
  obtain ⟨view, times, points, tags, read, timed, length, count, meanings, sorted, rfl⟩ := describes
  rw [joined_of_unpaired plain.name]
  exact ⟨view, times, points, tags, read, timed, length, count, meanings, sorted.plain plain.tags,
    rfl⟩

theorem denotes_value (x : Sample) :
    ∃ first, Denotes (value x) first ∧
      (x.isFinite = false → first = .null) ∧
      (x.isFinite = true → ∃ n, first = .number n ∧ n.toSample = x) := by
  cases x with
  | missing => exact ⟨.null, denotes_null, fun _ => rfl, fun finite => by cases finite⟩
  | infinite negative => exact ⟨.null, denotes_null, fun _ => rfl, fun finite => by cases finite⟩
  | finite x =>
    obtain ⟨n, read, same⟩ := Numeral.read_text x
    refine ⟨.number n, denotes_number (Numeral.text_marks x) read, ?_, ?_⟩
    · intro infinite
      cases infinite
    · intro _
      exact ⟨n, rfl, same⟩

theorem denotes_point (p : Sample × Int) : ∃ v, Denotes (Entry.point p) v ∧ IsPoint p v := by
  obtain ⟨first, denotes, meaning⟩ := denotes_value p.1
  have pair : Entry.point p =
      '[' :: [','].intercalate [value p.1, (toString p.2).toList] ++ [']'] := by
    simp [Entry.point]
  have written : Denotes (Entry.point p) (.array [first, .number (.ofInt p.2)]) := by
    rw [pair]
    exact denotes_array (.cons denotes (.cons (denotes_integer p.2) .nil))
  exact ⟨_, written, first, rfl, meaning⟩

theorem exists_values {α : Type} {write : α → List Char} {means : α → Value → Prop} {xs : List α}
    (each : ∀ x ∈ xs, ∃ v, Denotes (write x) v ∧ means x v) :
    ∃ values, List.Forall₂ Denotes (xs.map write) values ∧ List.Forall₂ means xs values := by
  induction xs with
  | nil => exact ⟨[], .nil, .nil⟩
  | cons x xs ih =>
    obtain ⟨v, denotes, meaning⟩ := each x (by simp)
    obtain ⟨values, others, meanings⟩ := ih fun y member => each y (List.mem_cons_of_mem _ member)
    exact ⟨v :: values, .cons denotes others, .cons meaning meanings⟩

theorem exists_texts {tags : Tags} (texts : tags.allText = true) :
    ∃ pairs : List (Text × Text), tags = pairs.map fun e => (e.1, .text e.2) := by
  induction tags with
  | nil => exact ⟨[], rfl⟩
  | cons t tags ih =>
    obtain ⟨key, v⟩ := t
    simp only [Tags.allText, List.all_cons, Bool.and_eq_true] at texts
    obtain ⟨pairs, rfl⟩ := ih texts.2
    cases v with
    | text s => exact ⟨(key, s) :: pairs, rfl⟩
    | _ => exact absurd texts.1 (by simp [TagValue.isText])

theorem sortedTags_perm (tags : Tags) : (Entry.sortedTags tags).Perm tags :=
  List.mergeSort_perm tags _

theorem sortedTags_sorted (tags : Tags) :
    (Entry.sortedTags tags).Pairwise fun a b => a.1 ≤ b.1 :=
  pairwise_mergeSort_key (fun t => t.1) tags

theorem denotes_tag (key s : Text) :
    DenotesEntry (Entry.tag (key, .text s)) (joined key, .text (joined s)) := by
  rw [Entry.tag, tagValue]
  exact (denotes_quoted s).entry key

/-- The tags as they are written, if each value is a text. -/
theorem denotes_tags {tags : Tags} (texts : tags.allText = true) :
    ∃ pairs : List (Text × Text),
      Entry.sortedTags tags = pairs.map (fun e => (e.1, .text e.2)) ∧
      List.Forall₂ DenotesEntry ((Entry.sortedTags tags).map Entry.tag)
        (pairs.map fun e => (joined e.1, .text (joined e.2))) := by
  have sorted : Tags.allText (Entry.sortedTags tags) = true := by
    rw [Tags.allText, List.all_eq_true]
    intro t member
    exact List.all_eq_true.mp texts t ((sortedTags_perm tags).mem_iff.mp member)
  obtain ⟨pairs, same⟩ := exists_texts sorted
  refine ⟨pairs, same, ?_⟩
  rw [same, List.map_map, List.forall₂_map_left_iff, List.forall₂_map_right_iff, List.forall₂_same]
  intro e _
  exact denotes_tag e.1 e.2

theorem isSorted_tags {tags : Tags} (map : IsTextMap tags) {pairs : List (Text × Text)}
    (same : Entry.sortedTags tags = pairs.map fun e => (e.1, .text e.2)) :
    IsSorted joined tags (pairs.map fun e => (joined e.1, .text (joined e.2))) := by
  have perm := sortedTags_perm tags
  have keys : ((Entry.sortedTags tags).map (·.1)).Nodup :=
    (perm.map (·.1)).nodup_iff.mpr map.keys
  have sorted := sortedTags_sorted tags
  rw [same] at perm keys sorted
  rw [List.pairwise_map] at sorted
  rw [List.map_map, List.Nodup, List.pairwise_map] at keys
  refine ⟨pairs, rfl, perm.symm, (sorted.and keys).imp ?_⟩
  rintro a b ⟨before, other⟩
  by_contra after
  exact other (Std.le_antisymm before after)

theorem text_eq (e : Entry) :
    e.text = '\x7b' :: [','].intercalate
      [quoted "target" ++ ':' :: quoted e.target,
        quoted "datapoints" ++
          ':' :: ('[' :: [','].intercalate (e.points.map Entry.point) ++ [']']),
        quoted "tags" ++
          ':' :: ('\x7b' :: [','].intercalate ((Entry.sortedTags e.tags).map Entry.tag) ++
            ['\x7d'])] ++ ['\x7d'] := by
  have target : quoted "target" = "\x22target\x22".toList := by decide
  have datapoints : quoted "datapoints" = "\x22datapoints\x22".toList := by decide
  have tags : quoted "tags" = "\x22tags\x22".toList := by decide
  rw [target, datapoints, tags]
  delta Entry.text
  simp

theorem denotes_text {e : Entry} (texts : e.tags.allText = true) :
    ∃ points tags,
      Denotes e.text (.object
        [("target", .text (joined e.target)), ("datapoints", .array points),
          ("tags", .object tags)]) ∧
      List.Forall₂ IsPoint e.points points ∧
      (IsTextMap e.tags → IsSorted joined e.tags tags) := by
  obtain ⟨points, inside, meanings⟩ := exists_values fun p (_ : p ∈ e.points) => denotes_point p
  obtain ⟨pairs, same, entries⟩ := denotes_tags texts
  refine ⟨points, _, ?_, meanings, fun map => isSorted_tags map same⟩
  rw [text_eq]
  apply denotes_object
  exact .cons ((denotes_quoted e.target).entry "target")
    (.cons ((denotes_array inside).entry "datapoints")
      (.cons ((denotes_object entries).entry "tags") .nil))

theorem shows_text {e : Entry} (map : IsTextMap e.tags) : ∃ v, Denotes e.text v ∧ e.Shows v := by
  obtain ⟨points, tags, denotes, meanings, sorted⟩ := denotes_text map.texts
  exact ⟨_, denotes, points, tags, meanings, sorted map, rfl⟩

theorem reads_document (entries : List Entry) : Reads (document entries) entries := by
  intro maps
  obtain ⟨objects, denotes, shows⟩ := exists_values fun e member => shows_text (maps e member)
  exact ⟨objects, read_of_denotes (denotes_array denotes), shows⟩

/-- The second reading of a view finds the first one. -/
theorem aggregatedTimestamps_of_ok {s after : Series} {view : List Sample}
    (read : s.aggregated = (.ok view, after)) :
    s.aggregatedTimestamps =
      (Time.instants after.start after.aggregatedStep view.length, after) := by
  simp [Series.aggregatedTimestamps, read]

theorem length_of_instants {start step : Int} {count : Nat} {times : List Int}
    (all : Time.instants start step count = .ok times) : times.length = count := by
  simp only [Time.instants] at all
  split at all
  · cases all
    simp
  · cases all

theorem entry_snd (s : Series) : (entry s).2 = s.aggregated.2 := by
  rcases read : s.aggregated with ⟨fault | view, after⟩
  · cases fault <;> simp [entry, read]
  · have again := s.aggregated_again
    rw [read] at again
    have second := aggregatedTimestamps_of_ok again
    simp only [entry, read, second]
    split <;> simp_all

theorem entry_again (s : Series) : entry (entry s).2 = entry s := by
  rw [entry_snd]
  simp only [entry, Series.aggregated_again]

/-- The entry of a series has its name, its view with the times of the view, and its tags. -/
theorem entry_cases (s : Series) :
    (∃ unknown, isShown s = false ∧ (entry s).1 = .ok (.error unknown)) ∨
    (∃ fault, (entry s).1 = .error fault) ∨
    ∃ view times, isShown s = true ∧ s.aggregated.1 = .ok view ∧
      s.aggregatedTimestamps.1 = .ok times ∧ times.length = view.length ∧
      (entry s).1 = .ok (.ok ⟨s.name, view.zip times, s.tags⟩) := by
  have name : s.aggregated.2.name = s.name := by rw [(Series.aggregated_steps s).frame]
  have tags : s.aggregated.2.tags = s.tags := by rw [(Series.aggregated_steps s).frame]
  have again := s.aggregated_again
  rcases read : s.aggregated with ⟨fault | view, after⟩
  · cases fault with
    | unknownReducer unknown => exact .inl ⟨unknown, by simp [isShown, read], by simp [entry, read]⟩
    | _ => exact .inr (.inl ⟨_, by simp only [entry, read]; rfl⟩)
  · rw [read] at again name tags
    simp only at again name tags
    have first := aggregatedTimestamps_of_ok read
    have second := aggregatedTimestamps_of_ok again
    cases all : Time.instants after.start after.aggregatedStep view.length with
    | error fault => exact .inr (.inl ⟨fault, by simp [entry, read, second, all]⟩)
    | ok times =>
      refine .inr (.inr ⟨view, times, ?_, rfl, ?_, length_of_instants all, ?_⟩)
      · simp [isShown, read]
      · rw [first, all]
      · simp only [entry, read, second, all, name, tags]

/-- The outcome for each series is the one that the series has before any of them is read: reading
one series changes no other, and makes it answer no different. -/
theorem contents_fst_of_read {positions : List Nat} {store now : Store}
    (same : List.Forall₂ (fun s next => entry next = entry s) store now) :
    (contents positions now).1 =
      ((positions.filterMap (store[·]?)).mapM fun s => (entry s).1).map
        fun outcomes => outcomes.foldr Contents.add ⟨[], []⟩ := by
  induction positions generalizing now with
  | nil => rfl
  | cons i rest ih =>
    rw [contents]
    cases present : now[i]? with
    | none =>
      rw [List.filterMap_cons_none (Store.absent_before same present)]
      exact ih same
    | some next =>
      obtain ⟨s, earlier, answer⟩ := Store.found_before same present
      have kept : List.Forall₂ (fun s next => entry next = entry s) store
          (now.set i (entry next).2) :=
        Store.related_set same earlier ((entry_again next).trans answer)
      have later := ih kept
      rw [List.filterMap_cons_some earlier, List.mapM_cons, ← answer]
      rcases read : entry next with ⟨fault | first, last⟩
      · simp only [read]
        rfl
      · rw [read] at later
        simp only [read, later]
        cases (rest.filterMap (store[·]?)).mapM fun s => (entry s).1 <;> rfl

theorem contents_fst (positions : List Nat) (store : Store) :
    (contents positions store).1 =
      ((positions.filterMap (store[·]?)).mapM fun s => (entry s).1).map
        fun outcomes => outcomes.foldr Contents.add ⟨[], []⟩ :=
  contents_fst_of_read (List.forall₂_same.mpr fun _ _ => rfl)

theorem outcomes_of_contents {positions : List Nat} {store after : Store} {found : Contents}
    (done : contents positions store = (.ok found, after)) :
    ∃ outcomes, List.Forall₂ (fun s outcome => (entry s).1 = .ok outcome)
        (positions.filterMap (store[·]?)) outcomes ∧
      found = outcomes.foldr Contents.add ⟨[], []⟩ := by
  have whole := contents_fst positions store
  rw [done] at whole
  cases listed : (positions.filterMap (store[·]?)).mapM fun s => (entry s).1 with
  | error fault =>
    rw [listed] at whole
    cases whole
  | ok outcomes =>
    rw [listed] at whole
    exact ⟨outcomes, mapM_eq_ok_iff.mp listed, Except.ok.inj whole⟩

/-- The report in place of an entry, if there is one. -/
def unknown? : Except UnknownReducer Entry → Option UnknownReducer
  | .error unknown => some unknown
  | .ok _ => none

theorem foldr_add (outcomes : List (Except UnknownReducer Entry)) :
    outcomes.foldr Contents.add ⟨[], []⟩ =
      ⟨outcomes.filterMap Except.toOption, outcomes.filterMap unknown?⟩ := by
  induction outcomes with
  | nil => rfl
  | cons outcome outcomes ih =>
    rw [List.foldr_cons, ih]
    cases outcome <;> rfl

/-- What is answered follows from the series that the batch names. -/
theorem encode_fst (batch : Batch) (store : Store) :
    (encode batch store).1 =
      ((batch.series store).mapM fun s => (entry s).1).map fun outcomes =>
        (document (outcomes.filterMap Except.toOption), outcomes.filterMap unknown?) := by
  simp only [encode, contents_fst, foldr_add, Batch.series]
  cases ((batch.present store).filterMap (store[·]?)).mapM fun s => (entry s).1 <;> rfl

/-- The entries of a document are those of the series shown. -/
theorem entries_of_contents {positions : List Nat} {store after : Store} {found : Contents}
    (done : contents positions store = (.ok found, after)) :
    List.Forall₂ (fun s e => (entry s).1 = .ok (.ok e))
      ((positions.filterMap (store[·]?)).filter isShown) found.entries := by
  obtain ⟨outcomes, each, gathered⟩ := outcomes_of_contents done
  rw [gathered, foldr_add]
  clear gathered done
  generalize positions.filterMap (store[·]?) = series at each ⊢
  induction each with
  | nil => exact .nil
  | @cons s outcome _ _ first _ ih =>
    rcases entry_cases s with
      ⟨unknown, hidden, left⟩ | ⟨fault, failed⟩ | ⟨view, times, shown, _, _, _, written⟩
    · rw [left] at first
      cases first
      rw [List.filter_cons_of_neg (by simp [hidden])]
      exact ih
    · rw [failed] at first
      cases first
    · rw [List.filter_cons_of_pos shown]
      rw [written] at first
      cases first
      exact .cons written ih

/-- The report that a document makes of a series, if it leaves the series out. -/
def omission (s : Series) : Option UnknownReducer :=
  match (entry s).1 with
  | .ok outcome => unknown? outcome
  | .error _ => none

theorem omission_eq_some_iff {s : Series} {unknown : UnknownReducer} :
    omission s = some unknown ↔ s.aggregated.1 = .error (.unknownReducer unknown) := by
  rcases read : s.aggregated with ⟨fault | view, after⟩
  · cases fault <;> simp [omission, entry, read, unknown?]
  · simp only [omission, entry, read]
    rcases after.aggregatedTimestamps with ⟨fault | times, last⟩ <;> simp [unknown?]

/-- The reports of a document are those of the series left out. -/
theorem unknowns_of_contents {positions : List Nat} {store after : Store} {found : Contents}
    (done : contents positions store = (.ok found, after)) :
    found.unknowns = positions.filterMap fun i => (store[i]?).bind omission := by
  obtain ⟨outcomes, each, gathered⟩ := outcomes_of_contents done
  rw [gathered, foldr_add, ← List.filterMap_filterMap]
  change outcomes.filterMap unknown? = _
  clear gathered done
  generalize positions.filterMap (store[·]?) = series at each ⊢
  induction each with
  | nil => rfl
  | cons first _ ih => simp only [List.filterMap_cons, omission, first, ih]

theorem describes_entry {s : Series} {e : Entry} (written : (entry s).1 = .ok (.ok e))
    (map : IsTextMap s.tags) : ∃ v, Denotes e.text v ∧ Describes joined s v := by
  rcases entry_cases s with
    ⟨unknown, _, left⟩ | ⟨fault, failed⟩ | ⟨view, times, _, read, timed, length, shown⟩
  · rw [left] at written
    cases written
  · rw [failed] at written
    cases written
  · rw [shown] at written
    cases written
    obtain ⟨v, denotes, points, tags, meanings, sorted, whole⟩ :=
      shows_text (e := ⟨s.name, view.zip times, s.tags⟩) map
    have count : points.length = view.length := by
      rw [← meanings.length_eq, List.length_zip, length, Nat.min_self]
    exact ⟨v, denotes, view, times, points, tags, read, timed, length, count, meanings, sorted,
      whole⟩

theorem exists_objects {means : Series → Value → Prop} {shown : List Series}
    {entries : List Entry}
    (written : List.Forall₂ (fun s e => (entry s).1 = .ok (.ok e)) shown entries)
    (each : ∀ s ∈ shown, ∀ e, (entry s).1 = .ok (.ok e) → ∃ v, Denotes e.text v ∧ means s v) :
    ∃ objects, List.Forall₂ Denotes (entries.map Entry.text) objects ∧
      List.Forall₂ means shown objects := by
  induction written with
  | nil => exact ⟨[], .nil, .nil⟩
  | cons first _ ih =>
    obtain ⟨v, denotes, meaning⟩ := each _ (by simp) _ first
    obtain ⟨objects, others, meanings⟩ :=
      ih fun s member => each s (List.mem_cons_of_mem _ member)
    exact ⟨v :: objects, .cons denotes others, .cons meaning meanings⟩

theorem denotes_document {means : Series → Value → Prop} {store after : Store} {batch : Batch}
    {found : Contents} (done : contents (batch.present store) store = (.ok found, after))
    (each : ∀ s ∈ batch.series store, ∀ e, (entry s).1 = .ok (.ok e) →
      ∃ v, Denotes e.text v ∧ means s v) :
    ∃ objects, Denotes (document found.entries) (.array objects) ∧
      List.Forall₂ means ((batch.series store).filter isShown) objects := by
  have written := entries_of_contents done
  obtain ⟨objects, denotes, meanings⟩ := exists_objects written <| by
    intro s member
    exact each s (List.mem_of_mem_filter member)
  exact ⟨objects, denotes_array denotes, meanings⟩

/-- A document is read with an object for each series that it shows. -/
theorem read_of_encode {store : Store} {batch : Batch} {text : List Char}
    {unknowns : List UnknownReducer} (done : (encode batch store).1 = .ok (text, unknowns))
    (maps : ∀ s ∈ batch.series store, IsTextMap s.tags) :
    Printable text ∧ ∃ objects, read text = some (.array objects) ∧
      List.Forall₂ (Describes joined) ((batch.series store).filter isShown) objects := by
  rcases gathered : contents (batch.present store) store with ⟨fault | found, last⟩
  · simp [encode, gathered, Except.map] at done
  · have same : text = document found.entries := by
      simp only [encode, gathered, Except.map, Except.ok.injEq, Prod.mk.injEq] at done
      exact done.1.symm
    obtain ⟨objects, whole, describes⟩ := denotes_document gathered
      fun s member e written => describes_entry written (maps s member)
    rw [same]
    exact ⟨whole.printable, objects, read_of_denotes whole, describes⟩

section

variable [Runtime]

theorem encode_of_perform {batch : Batch} {store after : Store} {text : List Char}
    {unknowns : List UnknownReducer}
    (answer : store.perform (.json batch) = (.ok (.document (.text text) unknowns), after)) :
    encode batch store = (.ok (text, unknowns), after) := by
  rcases read : encode batch store with ⟨fault | ⟨written, reports⟩, last⟩
  · simp [Store.perform, read, Except.map] at answer
  · simp only [Store.perform, read, Except.map, Prod.mk.injEq, Except.ok.injEq,
      Answer.document.injEq, Document.text.injEq] at answer
    rw [answer.1.1, answer.1.2, answer.2]

/-- A document is printable ASCII, and its reader finds one object for each series of the batch
whose reducer is known, in order. -/
theorem objects_of_perform {store after : Store} {batch : Batch} {text : List Char}
    {unknowns : List UnknownReducer}
    (answer : store.perform (.json batch) = (.ok (.document (.text text) unknowns), after))
    (plain : ∀ s ∈ batch.series store, IsPlain s) :
    (∀ c ∈ text, 0x20 ≤ c.toNat ∧ c.toNat ≤ 0x7e) ∧
      ∃ objects, read text = some (.array objects) ∧
        List.Forall₂ (Describes id) ((batch.series store).filter isShown) objects := by
  have done : (encode batch store).1 = .ok (text, unknowns) := by rw [encode_of_perform answer]
  obtain ⟨printable, objects, whole, describes⟩ :=
    read_of_encode done fun s member => (plain s member).tags.toIsTextMap
  refine ⟨printable, objects, whole, ?_⟩
  have members := (List.forall₂_and_left _ _).mpr ⟨fun s member => plain s
    (List.mem_of_mem_filter (p := isShown) member), describes⟩
  exact members.imp fun _ _ both => both.2.plain both.1

end

/-- One series twice, and a grouped one whose reducer is unknown. -/
theorem objects_of_perform_repeated :
    ∃ (store after : Store) (text : List Char) (unknowns : List UnknownReducer),
      store = Store.run [] [
        .makeTagged [Char.ofNat 0x1f600]
          [.ofNat 1, .missing, .finite (.zero true)] 10 0 [("a", .text "x")],
        .makeTagged "b" [.ofNat 1] 10 0 [], .edit 1 (.consolidation "none"), .regroup 1 2] ∧
      store.perform (.json [some 0, none, some 1, some 0]) =
        (.ok (.document (.text text) unknowns), after) ∧
      (∀ s ∈ Batch.series store [some 0, none, some 1, some 0], IsPlain s) ∧
      (∀ c ∈ text, 0x20 ≤ c.toNat ∧ c.toNat ≤ 0x7e) ∧
      ∃ objects, read text = some (.array objects) ∧ objects.length = 2 := by
  let store : Store := Store.run [] [
    .makeTagged [Char.ofNat 0x1f600]
      [.ofNat 1, .missing, .finite (.zero true)] 10 0 [("a", .text "x")],
    .makeTagged "b" [.ofNat 1] 10 0 [], .edit 1 (.consolidation "none"), .regroup 1 2]
  let batch : Batch := [some 0, none, some 1, some 0]
  have plain : ∀ s ∈ batch.series store, IsPlain s := by
    have scalar : (batch.series store).all isScalar = true := by decide +kernel
    intro s member
    exact isPlain_of_isScalar (List.all_eq_true.mp scalar s member)
  have shown : ((batch.series store).filter isShown).length = 2 := by decide +kernel
  have written : (contents (batch.present store) store).1.isOk = true := by decide +kernel
  rcases done : contents (batch.present store) store with ⟨fault | found, after⟩
  · rw [done] at written
    cases written
  · have answer : store.perform (.json batch) =
        (.ok (.document (.text (document found.entries)) found.unknowns), after) := by
      simp only [Store.perform, encode, done]
      rfl
    obtain ⟨printable, objects, whole, describes⟩ := objects_of_perform answer plain
    exact ⟨store, after, _, _, rfl, answer, plain, printable, objects, whole,
      by rw [← describes.length_eq, shown]⟩

end Rollup.Json
