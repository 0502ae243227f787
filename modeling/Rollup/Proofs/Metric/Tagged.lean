import Mathlib.Data.List.DropRight
import Mathlib.Data.List.TakeDrop
import Rollup.Proofs.Metric.Descent
import Rollup.Proofs.Tags
import Rollup.Proofs.Text.Reading

/-!
The tags of a metric name. Main statement: a path with tags after it, wrapped in calls to any depth
and with quotes and white space around it, gives its tags, the last one under a key; segments that
are no tags are passed over.
-/

namespace Rollup

namespace Text

variable {α : Type} {drops : α → Bool} {left right middle s rest : List α} {c : α}

theorem trim_eq (drops : α → Bool) (s : List α) :
    trim drops s = (s.dropWhile drops).rdropWhile drops := rfl

theorem dropWhile_of_first (first : ∀ c ∈ s.head?, drops c = false) : s.dropWhile drops = s := by
  cases s with
  | nil => rfl
  | cons c s => rw [List.dropWhile_cons_of_neg (by simp [first c rfl])]

theorem rdropWhile_of_last (last : ∀ c ∈ s.getLast?, drops c = false) :
    s.rdropWhile drops = s := by
  apply List.rdropWhile_eq_self_iff.mpr
  intro some_last
  rw [last _ (List.getLast_mem_getLast? some_last)]
  decide

theorem rdropWhile_append_of_all (all : ∀ c ∈ right, drops c = true) (s : List α) :
    (s ++ right).rdropWhile drops = s.rdropWhile drops := by
  have reversed : ∀ c ∈ right.reverse, drops c = true := by simpa using all
  rw [List.rdropWhile, List.rdropWhile, List.reverse_append,
    List.dropWhile_append_of_pos reversed]

/-- What is dropped from the end lies after each member that is kept. -/
theorem rdropWhile_append_cons (kept : drops c = false) (s rest : List α) :
    (s ++ c :: rest).rdropWhile drops = s ++ c :: rest.rdropWhile drops := by
  induction rest using List.reverseRecOn with
  | nil =>
    rw [List.rdropWhile_nil, List.rdropWhile_concat_neg _ _ _ (by simp [kept])]
  | append_singleton rest d ih =>
    have whole : s ++ c :: (rest ++ [d]) = (s ++ c :: rest) ++ [d] := by simp
    rw [whole, List.rdropWhile_concat, List.rdropWhile_concat, ih]
    split
    · rfl
    · exact whole.symm

/-- A list neither begins nor ends with a member of a class. -/
structure IsBare (drops : α → Bool) (s : List α) : Prop where
  first : ∀ c ∈ s.head?, drops c = false
  last : ∀ c ∈ s.getLast?, drops c = false

theorem IsBare.imp {other : α → Bool} (bare : IsBare drops s)
    (implies : ∀ c, drops c = false → other c = false) : IsBare other s :=
  ⟨fun c first => implies c (bare.first c first), fun c last => implies c (bare.last c last)⟩

theorem isBare_of_forall (none : ∀ c ∈ s, drops c = false) : IsBare drops s :=
  ⟨fun c first => none c (List.mem_of_mem_head? first),
    fun c last => none c (List.mem_of_mem_getLast? last)⟩

theorem IsBare.append (bare : IsBare drops s) (onward : IsBare drops rest) :
    IsBare drops (s ++ rest) where
  first := by
    intro c first
    rw [List.head?_append, Option.mem_def, Option.or_eq_some_iff] at first
    rcases first with here | ⟨_, later⟩
    · exact bare.first c here
    · exact onward.first c later
  last := by
    intro c last
    rw [List.getLast?_append, Option.mem_def, Option.or_eq_some_iff] at last
    rcases last with here | ⟨_, earlier⟩
    · exact onward.last c here
    · exact bare.last c earlier

theorem trim_around (bare : IsBare drops middle) (before : ∀ c ∈ left, drops c = true)
    (after : ∀ c ∈ right, drops c = true) : trim drops (left ++ middle ++ right) = middle := by
  rw [trim_eq, List.append_assoc, List.dropWhile_append_of_pos before]
  cases middle with
  | nil =>
    rw [List.nil_append, List.dropWhile_eq_nil_iff.mpr after]
    rfl
  | cons c s =>
    have first : ∀ d ∈ (c :: s ++ right).head?, drops d = false := bare.first
    rw [dropWhile_of_first first, rdropWhile_append_of_all after, rdropWhile_of_last bare.last]

theorem trim_append_cons (before : ∀ c ∈ left, drops c = true)
    (first : ∀ c ∈ s.head?, drops c = false) (kept : drops c = false) (rest : List α) :
    trim drops (left ++ (s ++ c :: rest)) = s ++ c :: rest.rdropWhile drops := by
  have starts : ∀ d ∈ (s ++ c :: rest).head?, drops d = false := by
    cases s with
    | nil =>
      rintro d ⟨⟩
      exact kept
    | cons d s => exact first
  rw [trim_eq, List.dropWhile_append_of_pos before, dropWhile_of_first starts,
    rdropWhile_append_cons kept]

end Text

namespace Metric

/-- What stands before each tag. -/
abbrev semicolon : CodePoint := ';'

/-- What stands between the key and the value of a tag. -/
abbrev equals : CodePoint := '='

/-- White space and quotes. -/
def isEdge (c : CodePoint) : Bool := Text.isBlank c || Text.isQuote c

theorem isBlank_of_isQuote {c : CodePoint} (quote : Text.isQuote c = true) :
    Text.isBlank c = false := by
  rw [Text.isQuote, Bool.or_eq_true, beq_iff_eq, beq_iff_eq] at quote
  rcases quote with rfl | rfl
  · decide
  · decide

theorem isPlain_of_isEdge {c : CodePoint} (edge : isEdge c = true) : IsPlain c := by
  refine ⟨?_, ?_⟩
  · rintro rfl
    revert edge
    decide
  · rintro (rfl | rfl)
    all_goals
      revert edge
      decide

/-- Quotes around a text, and white space around the quotes; there may be none of either. -/
structure Dressing where
  before : Text
  opening : Text
  closing : Text
  after : Text
  blank_before : ∀ c ∈ before, Text.isBlank c = true
  quote_opening : ∀ c ∈ opening, Text.isQuote c = true
  quote_closing : ∀ c ∈ closing, Text.isQuote c = true
  blank_after : ∀ c ∈ after, Text.isBlank c = true

namespace Dressing

variable {dressing : Dressing} {s : Text}

def around (dressing : Dressing) (s : Text) : Text :=
  dressing.before ++ (dressing.opening ++ s ++ dressing.closing) ++ dressing.after

theorem around_plain (plain : ∀ c ∈ s, IsPlain c) : ∀ c ∈ dressing.around s, IsPlain c := by
  intro c member
  simp only [around, List.mem_append] at member
  rcases member with (blank | (quote | inside) | quote) | blank
  · exact isPlain_of_isEdge (by simp [isEdge, dressing.blank_before c blank])
  · exact isPlain_of_isEdge (by simp [isEdge, dressing.quote_opening c quote])
  · exact plain c inside
  · exact isPlain_of_isEdge (by simp [isEdge, dressing.quote_closing c quote])
  · exact isPlain_of_isEdge (by simp [isEdge, dressing.blank_after c blank])

theorem isBare_opening : Text.IsBare Text.isBlank dressing.opening :=
  Text.isBare_of_forall fun c member => isBlank_of_isQuote (dressing.quote_opening c member)

theorem isBare_closing : Text.IsBare Text.isBlank dressing.closing :=
  Text.isBare_of_forall fun c member => isBlank_of_isQuote (dressing.quote_closing c member)

/-- A text without edges of its own is what is left. -/
theorem trim_around (bare : Text.IsBare isEdge s) :
    Text.trim Text.isQuote (Text.trim Text.isBlank (dressing.around s)) = s := by
  have blank : Text.IsBare Text.isBlank s := bare.imp fun c edge => (Bool.or_eq_false_iff.mp edge).1
  have quote : Text.IsBare Text.isQuote s := bare.imp fun c edge => (Bool.or_eq_false_iff.mp edge).2
  have inside : Text.IsBare Text.isBlank (dressing.opening ++ s ++ dressing.closing) :=
    (dressing.isBare_opening.append blank).append dressing.isBare_closing
  rw [around, Text.trim_around inside dressing.blank_before dressing.blank_after,
    Text.trim_around quote dressing.quote_opening dressing.quote_closing]

/-- What follows a character that is no edge may lose its end. -/
theorem trim_around_cons (first : ∀ c ∈ s.head?, isEdge c = false) {c : CodePoint}
    (kept : isEdge c = false) (rest : Text) :
    Text.trim Text.isQuote (Text.trim Text.isBlank (dressing.around (s ++ c :: rest))) =
      s ++ c :: ((rest ++ dressing.closing ++ dressing.after).rdropWhile
        Text.isBlank).rdropWhile Text.isQuote := by
  have opens : ∀ d ∈ (dressing.opening ++ s).head?, Text.isBlank d = false := by
    intro d starts
    rw [List.head?_append, Option.mem_def, Option.or_eq_some_iff] at starts
    rcases starts with quote | ⟨_, here⟩
    · exact dressing.isBare_opening.first d quote
    · exact (Bool.or_eq_false_iff.mp (first d here)).1
  have starts : ∀ d ∈ s.head?, Text.isQuote d = false :=
    fun d here => (Bool.or_eq_false_iff.mp (first d here)).2
  have edges := Bool.or_eq_false_iff.mp kept
  calc
    Text.trim Text.isQuote (Text.trim Text.isBlank (dressing.around (s ++ c :: rest)))
      = Text.trim Text.isQuote (Text.trim Text.isBlank (dressing.before ++
          ((dressing.opening ++ s) ++ c :: (rest ++ dressing.closing ++ dressing.after)))) := by
        simp [around]
    _ = Text.trim Text.isQuote (dressing.opening ++
          (s ++ c :: (rest ++ dressing.closing ++ dressing.after).rdropWhile Text.isBlank)) := by
        rw [Text.trim_append_cons dressing.blank_before opens edges.1, List.append_assoc]
    _ = _ := Text.trim_append_cons dressing.quote_opening starts edges.2 _

end Dressing

/-- Without brackets, commas and semicolons. -/
def IsWithin (s : Text) : Prop := ∀ c ∈ s, IsPlain c ∧ c ≠ semicolon

/-- Without an equals sign, or with nothing before it. -/
def IsKeyless (s : Text) : Prop := equals ∉ s ∨ s.head? = some equals

instance (s : Text) : Decidable (IsWithin s) :=
  List.decidableBAll (fun c => IsPlain c ∧ c ≠ semicolon) s

instance (s : Text) : Decidable (IsKeyless s) := inferInstanceAs (Decidable (_ ∨ _))

theorem IsWithin.of_start {s t : Text} (within : IsWithin t) (first : s <+: t) :
    IsWithin s := fun c member => within c (first.subset member)

theorem IsKeyless.of_start {s t : Text} (keyless : IsKeyless t) (first : s <+: t) :
    IsKeyless s := by
  rcases keyless with free | empty
  · exact .inl fun member => free (first.subset member)
  · obtain ⟨rest, rfl⟩ := first
    cases s with
    | nil => exact .inl (by simp)
    | cons c s => exact .inr empty

/-- What may stand between semicolons: a tag, or a text that is none and is passed over. -/
inductive Segment where
  | tag (key value : Text) : key ≠ [] → equals ∉ key → IsWithin (key ++ equals :: value) → Segment
  | other (text : Text) : IsKeyless text → IsWithin text → Segment

namespace Segment

def isTag : Segment → Bool
  | tag .. => true
  | other .. => false

def text : Segment → Text
  | tag key value _ _ _ => key ++ equals :: value
  | other text _ _ => text

def entry? : Segment → Option (Text × TagValue)
  | tag key value _ _ _ => some (key, .text value)
  | other .. => none

theorem within (segment : Segment) : IsWithin segment.text := by
  cases segment with
  | tag key value _ _ within => exact within
  | other text _ within => exact within

theorem tag?_text (segment : Segment) : tag? segment.text = segment.entry? := by
  cases segment with
  | tag key value named free _ =>
    have all : ∀ c ∈ key, (c != equals) = true := by
      intro c member
      exact bne_iff_ne.mpr (ne_of_mem_of_not_mem member free)
    have cut : (key ++ equals :: value).span (· != equals) = (key, equals :: value) := by
      simp [List.span_eq_takeWhile_dropWhile, List.takeWhile_append_of_pos all,
        List.dropWhile_append_of_pos all]
    obtain ⟨c, more, rfl⟩ := List.exists_cons_of_ne_nil named
    simp only [text, tag?, cut, entry?]
  | other text keyless _ =>
    rcases keyless with free | empty
    · have all : ∀ c ∈ text, (c != equals) = true := by
        intro c member
        exact bne_iff_ne.mpr (ne_of_mem_of_not_mem member free)
      have cut : text.span (· != equals) = (text, []) := by
        rw [List.span_eq_takeWhile_dropWhile, List.takeWhile_eq_self_iff.mpr all,
          List.dropWhile_eq_nil_iff.mpr all]
      cases text <;> simp only [Segment.text, tag?, cut, entry?]
    · obtain ⟨more, rfl⟩ : ∃ more, text = equals :: more := by
        cases text with
        | nil => cases empty
        | cons c more =>
          cases empty
          exact ⟨more, rfl⟩
      have cut : (equals :: more).span (· != equals) = ([], equals :: more) := by
        simp [List.span_eq_takeWhile_dropWhile]
      simp only [Segment.text, tag?, cut, entry?]

end Segment

/-- A path and segments, each after a semicolon. -/
def written (path : Text) (segments : List Segment) : Text :=
  path ++ segments.flatMap fun segment => semicolon :: segment.text

variable {path : Text} {segments : List Segment}

theorem written_plain (within : IsWithin path) (segments : List Segment) :
    ∀ c ∈ written path segments, IsPlain c := by
  intro c member
  rw [written, List.mem_append, List.mem_flatMap] at member
  rcases member with inside | ⟨segment, _, inside⟩
  · exact (within c inside).1
  · rcases List.mem_cons.mp inside with rfl | inside
    · exact ⟨by decide, by decide⟩
    · exact (segment.within c inside).1

theorem written_concat (path : Text) (segments : List Segment) (segment : Segment) :
    written path (segments ++ [segment]) = written path segments ++ semicolon :: segment.text := by
  simp [written]

/-- A metric name is cut into its path and its segments. -/
theorem splitOn_written (free : semicolon ∉ path) (segments : List Segment) :
    Text.splitOn semicolon (written path segments) = path :: segments.map Segment.text := by
  induction segments generalizing path with
  | nil => simpa [written] using Text.splitOn_of_free free
  | cons segment segments ih =>
    have inside : semicolon ∉ segment.text := fun member => (segment.within _ member).2 rfl
    have cut : written path (segment :: segments) =
        path ++ semicolon :: written segment.text segments := by
      simp [written]
    rw [cut, Text.splitOn_append free, ih inside, List.map_cons]

theorem first_of_written (first : ∀ c ∈ path.head?, isEdge c = false) (segments : List Segment) :
    ∀ c ∈ (written path segments).head?, isEdge c = false := by
  intro c starts
  rw [written, List.head?_append, Option.mem_def, Option.or_eq_some_iff] at starts
  rcases starts with here | ⟨_, later⟩
  · exact first c here
  · cases segments with
    | nil => cases later
    | cons segment segments =>
      cases later
      decide

theorem getLast?_written (path : Text) (segments : List Segment) {segment : Segment}
    (some_text : segment.text ≠ []) :
    (written path (segments ++ [segment])).getLast? = segment.text.getLast? := by
  rw [written_concat, List.append_cons, List.getLast?_append_of_ne_nil _ some_text]

/-- After the text of a segment, quotes and white space leave it within its bounds, and without a
key if it had none. -/
theorem Dressing.closed (dressing : Dressing) {text : Text} (keyless : IsKeyless text)
    (within : IsWithin text) :
    IsKeyless (text ++ dressing.closing ++ dressing.after) ∧
      IsWithin (text ++ dressing.closing ++ dressing.after) := by
  have edges : ∀ c ∈ dressing.closing ++ dressing.after, isEdge c = true := by
    intro c member
    rcases List.mem_append.mp member with quote | blank
    · simp [isEdge, dressing.quote_closing c quote]
    · simp [isEdge, dressing.blank_after c blank]
  rw [List.append_assoc]
  constructor
  · rcases keyless with free | empty
    · left
      intro member
      rcases List.mem_append.mp member with inside | edge
      · exact free inside
      · exact absurd (edges _ edge) (by decide)
    · right
      rw [List.head?_append, empty, Option.some_or]
  · intro c member
    rcases List.mem_append.mp member with inside | edge
    · exact within c inside
    · refine ⟨isPlain_of_isEdge (edges c edge), ?_⟩
      rintro rfl
      exact absurd (edges _ edge) (by decide)

theorem first_of_bare (bare : Text.IsBare isEdge (written path segments)) :
    ∀ c ∈ path.head?, isEdge c = false := by
  intro c here
  apply bare.first c
  rw [written, List.head?_append, here, Option.some_or]
  rfl

/-- A name that ends with a tag has no other edges than one with the tags alone. -/
theorem isBare_of_tag {segment : Segment} (tagged : segment.isTag = true)
    (bare : Text.IsBare isEdge (written path ((segments ++ [segment]).filter Segment.isTag))) :
    Text.IsBare isEdge (written path (segments ++ [segment])) where
  first := first_of_written (first_of_bare bare) _
  last := by
    have some_text : segment.text ≠ [] := by
      cases segment with
      | tag key value _ _ _ => simp [Segment.text]
      | other text _ _ => cases tagged
    have kept : (segments ++ [segment]).filter Segment.isTag =
        segments.filter Segment.isTag ++ [segment] := by
      rw [List.filter_append, List.filter_cons_of_pos tagged, List.filter_nil]
    rw [getLast?_written path segments some_text,
      ← getLast?_written path (segments.filter Segment.isTag) some_text, ← kept]
    exact bare.last

/-- Whatever a name is wrapped in and dressed with, its path and its tags are found; of a last
segment that is no tag the end may be lost. -/
theorem exists_written (within : IsWithin path)
    (bare : Text.IsBare isEdge (written path (segments.filter Segment.isTag)))
    (calls : List Call) (dressing : Dressing) :
    ∃ rest : List Segment,
      ofName (wrap calls (dressing.around (written path segments))) = written path rest ∧
        rest.filterMap Segment.entry? = segments.filterMap Segment.entry? := by
  have first := first_of_bare bare
  rw [ofName, innermost_wrap calls (dressing.around_plain (written_plain within segments))]
  rcases List.eq_nil_or_concat segments with rfl | ⟨front, segment, rfl⟩
  · exact ⟨[], dressing.trim_around bare, rfl⟩
  · rw [List.concat_eq_append] at bare ⊢
    cases segment with
    | tag key value named free inside =>
      exact ⟨_, dressing.trim_around (isBare_of_tag rfl bare), rfl⟩
    | other text keyless inside =>
      have closed := dressing.closed keyless inside
      have ends : ((text ++ dressing.closing ++ dressing.after).rdropWhile
          Text.isBlank).rdropWhile Text.isQuote <+: text ++ dressing.closing ++ dressing.after :=
        (List.rdropWhile_prefix _ _).trans (List.rdropWhile_prefix _ _)
      refine ⟨front ++ [.other _ (closed.1.of_start ends) (closed.2.of_start ends)], ?_, ?_⟩
      · rw [written_concat, written_concat]
        exact dressing.trim_around_cons (first_of_written first front) (by decide) text
      · rw [List.filterMap_append, List.filterMap_append]
        rfl

theorem tags_eq (within : IsWithin path)
    (bare : Text.IsBare isEdge (written path (segments.filter Segment.isTag)))
    (calls : List Call) (dressing : Dressing) :
    tags (wrap calls (dressing.around (written path segments))) =
      Tags.ofList
        (("name", .text path) :: segments.filterMap Segment.entry?) := by
  obtain ⟨rest, found, same⟩ := exists_written within bare calls dressing
  have free : semicolon ∉ path := fun member => (within _ member).2 rfl
  have texts : tag? ∘ Segment.text = Segment.entry? := funext Segment.tag?_text
  rw [tags, found, splitOn_written free]
  simp only [List.filterMap_map, texts, same]

theorem entry?_filter (segments : List Segment) :
    (segments.filter Segment.isTag).filterMap Segment.entry? =
      segments.filterMap Segment.entry? := by
  rw [List.filterMap_filter]
  apply List.filterMap_congr
  intro segment _
  cases segment <;> rfl

/-- The metric in the first argument of calls to any depth is found whatever else the calls hold,
with quotes and white space around it or without: its tags are its path under the key `name` and
then its own, of which the last one under a key counts. The segments that are no tags add nothing,
wherever they stand. -/
theorem tags_of_wrapped (within : IsWithin path)
    (bare : Text.IsBare isEdge (written path (segments.filter Segment.isTag)))
    (calls : List Call) (dressing : Dressing) :
    (tags (wrap calls (dressing.around (written path segments)))).IsMapOf
        (("name", .text path) :: segments.filterMap Segment.entry?) ∧
      tags (wrap calls (dressing.around (written path segments))) =
        tags (wrap calls (dressing.around (written path (segments.filter Segment.isTag)))) := by
  have whole := tags_eq within bare calls dressing
  have again : (segments.filter Segment.isTag).filter Segment.isTag =
      segments.filter Segment.isTag := by
    rw [List.filter_filter]
    simp only [Bool.and_self]
  have bare' : Text.IsBare isEdge
      (written path ((segments.filter Segment.isTag).filter Segment.isTag)) := by
    rw [again]
    exact bare
  constructor
  · rw [whole]
    exact Tags.isMapOf_ofList _
  · rw [whole, tags_eq within bare' calls dressing, entry?_filter]

/-- Two calls, with brackets that do not match in their further arguments, and quotes that do not
match; the path and one tag are replaced by later tags. -/
theorem tags_of_wrapped_unbalanced :
    ∃ (name path : Text) (segments : List Segment) (calls : List Call)
      (dressing : Dressing),
      name = "scale( sum( 'a.b;dc=x;=v;name=c d;junk;dc=y=z; \"\t, b(;e=f), 2))" ∧
      name = wrap calls (dressing.around (written path segments)) ∧
      calls.length = 2 ∧ IsWithin path ∧
      Text.IsBare isEdge (written path (segments.filter Segment.isTag)) ∧
      (tags name).get? "name" = some (.text "c d") ∧ (tags name).get? "dc" = some (.text "y=z") ∧
      (tags name).get? "e" = none := by
  let calls : List Call := [
    ⟨"scale", ", 2))", Text.forall_of_all (by decide), by rintro _ ⟨⟩; decide⟩,
    ⟨" sum", ", b(;e=f)", Text.forall_of_all (by decide), by rintro _ ⟨⟩; decide⟩]
  let dressing : Dressing :=
    ⟨[' '], ['\x27'], ['\x22'], ['\t'], Text.forall_of_all (by decide),
      Text.forall_of_all (by decide), Text.forall_of_all (by decide),
      Text.forall_of_all (by decide)⟩
  let segments : List Segment := [
    .tag "dc" "x" (by decide) (by decide) (by decide),
    .other "=v" (by decide) (by decide),
    .tag "name" "c d" (by decide) (by decide) (by decide),
    .other "junk" (by decide) (by decide),
    .tag "dc" "y=z" (by decide) (by decide) (by decide),
    .other " " (by decide) (by decide)]
  have within : IsWithin "a.b" := by decide
  have bare : Text.IsBare isEdge (written "a.b" (segments.filter Segment.isTag)) := by
    have first : (written "a.b" (segments.filter Segment.isTag)).head? = some 'a' := rfl
    have last : (written "a.b" (segments.filter Segment.isTag)).getLast? = some 'z' := rfl
    constructor
    · rw [first]
      rintro _ ⟨⟩
      decide
    · rw [last]
      rintro _ ⟨⟩
      decide
  have map := (tags_of_wrapped within bare calls dressing).1
  have named : "scale( sum( 'a.b;dc=x;=v;name=c d;junk;dc=y=z; \"\t, b(;e=f), 2))" =
      wrap calls (dressing.around (written "a.b" segments)) := by
    decide +kernel
  refine ⟨_, "a.b", segments, calls, dressing, rfl, named, rfl, within, bare, ?_, ?_, ?_⟩
  · rw [named, map.values]
    rfl
  · rw [named, map.values]
    rfl
  · rw [named, map.values]
    rfl

end Metric

end Rollup
