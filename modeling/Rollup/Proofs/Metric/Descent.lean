import Rollup.Metric

/-!
Finding the metric of a name. Main statements: cutting out first arguments, from the outside in,
ends after as many cuts as there are opening brackets at most, and where a single reading from left
to right does; and it ends with the text that is wrapped in calls as their first argument, whatever
follows that argument.
-/

namespace Rollup.Metric

/-- The opening bracket. -/
abbrev bracket : CodePoint := '('

/-- A reading from left to right, with the text read so far. It starts anew after each opening
bracket and stops before the first comma or closing bracket. -/
def scan (read : Text) : Text → Text
  | [] => read
  | c :: rest =>
    if c = bracket then scan [] rest
    else if c = ')' ∨ c = ',' then read
    else scan (read ++ [c]) rest

def IsStop (c : CodePoint) : Prop := c = ')' ∨ c = ','

def IsPlain (c : CodePoint) : Prop := c ≠ bracket ∧ ¬ IsStop c

instance (c : CodePoint) : Decidable (IsStop c) := inferInstanceAs (Decidable (_ ∨ _))

instance (c : CodePoint) : Decidable (IsPlain c) := inferInstanceAs (Decidable (_ ∧ ¬ _))

theorem open_or_stop_or_plain (c : CodePoint) : c = bracket ∨ IsStop c ∨ IsPlain c := by
  by_cases opens : c = bracket
  · exact .inl opens
  · by_cases stops : IsStop c
    · exact .inr (.inl stops)
    · exact .inr (.inr ⟨opens, stops⟩)

variable {read s rest : Text} {c : CodePoint} {depth : Nat}

theorem scan_open (read rest : Text) : scan read (bracket :: rest) = scan [] rest := rfl

theorem scan_stop (stops : IsStop c) : scan read (c :: rest) = read := by
  rcases stops with rfl | rfl
  · rfl
  · rfl

theorem scan_plain (plain : IsPlain c) : scan read (c :: rest) = scan (read ++ [c]) rest := by
  have onward : ¬ (c = ')' ∨ c = ',') := plain.2
  rw [scan, if_neg plain.1, if_neg onward]

theorem firstArgument_open (depth : Nat) (rest : Text) :
    firstArgument depth (bracket :: rest) = bracket :: firstArgument (depth + 1) rest := rfl

theorem firstArgument_stop (stops : IsStop c) : firstArgument 0 (c :: rest) = [] := by
  rcases stops with rfl | rfl
  · rfl
  · rfl

theorem firstArgument_plain (plain : IsPlain c) :
    firstArgument depth (c :: rest) = c :: firstArgument depth rest := by
  have stops := not_or.mp plain.2
  rw [firstArgument, if_neg plain.1, if_neg stops.1, if_neg fun comma => stops.2 comma.1]

/-- No first argument is cut before the reading stops. -/
theorem scan_firstArgument (depth : Nat) (read s : Text) :
    scan read (firstArgument depth s) = scan read s := by
  induction s generalizing depth read with
  | nil => rfl
  | cons c rest ih =>
    rcases open_or_stop_or_plain c with rfl | stops | plain
    · rw [firstArgument_open, scan_open, scan_open, ih]
    · rw [scan_stop stops]
      cases depth with
      | zero => rw [firstArgument_stop stops, scan]
      | succ depth =>
        -- the argument goes on, but the reading is over
        rcases stops with rfl | rfl
        · rfl
        · rfl
    · rw [firstArgument_plain plain, scan_plain plain, scan_plain plain, ih]

theorem afterBracket?_cons (other : c ≠ bracket) : afterBracket? (c :: s) = afterBracket? s := by
  simp [afterBracket?, other]

theorem afterBracket?_of_free (free : bracket ∉ s) : afterBracket? s = none := by
  induction s with
  | nil => rfl
  | cons c s ih =>
    rw [List.mem_cons, not_or] at free
    rw [afterBracket?_cons (Ne.symm free.1), ih free.2]

theorem afterBracket?_append (free : bracket ∉ s) :
    afterBracket? (s ++ bracket :: rest) = some rest := by
  induction s with
  | nil => rfl
  | cons c s ih =>
    rw [List.mem_cons, not_or] at free
    rw [List.cons_append, afterBracket?_cons (Ne.symm free.1), ih free.2]

/-- A first argument without a call in it is read as it is. -/
theorem scan_of_flat (flat : afterBracket? (firstArgument 0 s) = none) :
    scan read s = read ++ firstArgument 0 s := by
  induction s generalizing read with
  | nil => simp [scan, firstArgument]
  | cons c rest ih =>
    rcases open_or_stop_or_plain c with rfl | stops | plain
    · cases flat
    · rw [firstArgument_stop stops, scan_stop stops, List.append_nil]
    · rw [firstArgument_plain plain] at flat ⊢
      rw [afterBracket?_cons plain.1] at flat
      rw [scan_plain plain, ih flat, List.append_assoc, List.singleton_append]

/-- A first argument with a call in it is read from the first argument of that call on. -/
theorem scan_of_call (call : afterBracket? (firstArgument 0 s) = some rest) :
    scan read s = scan [] rest := by
  induction s generalizing read with
  | nil => cases call
  | cons c others ih =>
    rcases open_or_stop_or_plain c with rfl | stops | plain
    · cases call
      rw [scan_open, scan_firstArgument]
    · rw [firstArgument_stop stops] at call
      cases call
    · rw [firstArgument_plain plain, afterBracket?_cons plain.1] at call
      rw [scan_plain plain, ih call]

/-- The metric of a name with a call is what is read after its first opening bracket. -/
theorem innermost_eq_scan (s : Text) :
    innermost s = ((afterBracket? s).map (scan [])).getD s := by
  fun_induction innermost s with
  | case1 s found => rw [found, Option.map_none, Option.getD_none]
  | case2 s rest found ih =>
    rw [found, ih, Option.map_some, Option.getD_some]
    cases inner : afterBracket? (firstArgument 0 rest) with
    | none => rw [scan_of_flat inner, Option.map_none, Option.getD_none, List.nil_append]
    | some next => rw [scan_of_call inner, Option.map_some, Option.getD_some]

theorem firstArgument_isPrefix (depth : Nat) (s : Text) : firstArgument depth s <+: s := by
  induction s generalizing depth with
  | nil => exact List.prefix_rfl
  | cons c rest ih =>
    rcases open_or_stop_or_plain c with rfl | stops | plain
    · rw [firstArgument_open]
      exact List.cons_prefix_cons.mpr ⟨rfl, ih _⟩
    · cases depth with
      | zero =>
        rw [firstArgument_stop stops]
        exact List.nil_prefix
      | succ depth =>
        rcases stops with rfl | rfl
        · exact List.cons_prefix_cons.mpr ⟨rfl, ih depth⟩
        · exact List.cons_prefix_cons.mpr ⟨rfl, ih (depth + 1)⟩
    · rw [firstArgument_plain plain]
      exact List.cons_prefix_cons.mpr ⟨rfl, ih depth⟩

/-- The cuts from the outside in, counted, down to a text without a call. -/
inductive Descends : Nat → Text → Text → Prop
  | ends {s : Text} : bracket ∉ s → Descends 0 s s
  | cuts {passes : Nat} {before rest inner : Text} : bracket ∉ before →
      Descends passes (firstArgument 0 rest) inner →
      Descends (passes + 1) (before ++ bracket :: rest) inner

theorem afterBracket?_cases (s : Text) :
    (bracket ∉ s ∧ afterBracket? s = none) ∨
      ∃ before rest, s = before ++ bracket :: rest ∧ bracket ∉ before ∧
        afterBracket? s = some rest := by
  by_cases opens : bracket ∈ s
  · obtain ⟨before, rest, rfl, free⟩ := List.eq_append_cons_of_mem opens
    exact .inr ⟨before, rest, rfl, free, afterBracket?_append free⟩
  · exact .inl ⟨opens, afterBracket?_of_free opens⟩

/-- Each cut leaves at least one opening bracket fewer. -/
theorem exists_descends (s : Text) :
    ∃ passes ≤ s.count bracket, Descends passes s (innermost s) := by
  fun_induction innermost s with
  | case1 s found =>
    rcases afterBracket?_cases s with ⟨free, _⟩ | ⟨_, _, _, _, some_call⟩
    · exact ⟨0, Nat.zero_le _, .ends free⟩
    · rw [some_call] at found
      cases found
  | case2 s rest found ih =>
    rcases afterBracket?_cases s with ⟨_, no_call⟩ | ⟨before, others, rfl, free, some_call⟩
    · rw [no_call] at found
      cases found
    · rw [some_call] at found
      cases found
      obtain ⟨passes, few, descends⟩ := ih
      refine ⟨passes + 1, ?_, .cuts free descends⟩
      have fewer := (firstArgument_isPrefix 0 rest).sublist.count_le bracket
      rw [List.count_append, List.count_cons_self]
      omega

/-- What is read stands in the text, between an opening bracket and the first stop after it. -/
theorem scan_between (read : Text) (plain : ∀ c ∈ read, IsPlain c) (s : Text) :
    ∃ front after, bracket :: (read ++ s) = front ++ bracket :: (scan read s ++ after) ∧
      (∀ c ∈ front, ¬ IsStop c) ∧ (∀ c ∈ scan read s, IsPlain c) ∧
      ∀ c ∈ after.head?, IsStop c := by
  induction s generalizing read with
  | nil => exact ⟨[], [], by simp [scan], by simp, plain, by simp⟩
  | cons c rest ih =>
    rcases open_or_stop_or_plain c with rfl | stops | here
    · -- the reading starts anew, and what was read so far is left behind
      obtain ⟨front, after, whole, passed, kept, ends⟩ := ih [] (by simp)
      refine ⟨bracket :: (read ++ front), after, ?_, ?_, kept, ends⟩
      · rw [List.nil_append] at whole
        rw [scan_open, whole]
        simp
      · intro d member
        rcases List.mem_cons.mp member with rfl | member
        · decide
        · rcases List.mem_append.mp member with inside | later
          · exact (plain d inside).2
          · exact passed d later
    · refine ⟨[], c :: rest, ?_, by simp, ?_, ?_⟩
      · rw [scan_stop stops, List.nil_append]
      · rw [scan_stop stops]
        exact plain
      · rintro _ ⟨⟩
        exact stops
    · have further : ∀ d ∈ read ++ [c], IsPlain d := by
        intro d member
        rcases List.mem_append.mp member with inside | last
        · exact plain d inside
        · rw [List.mem_singleton.mp last]
          exact here
      obtain ⟨front, after, whole, passed, kept, ends⟩ := ih _ further
      rw [scan_plain here]
      refine ⟨front, after, ?_, passed, kept, ends⟩
      rw [← whole, List.append_assoc, List.singleton_append]

/-- The metric of any name is found: no more cuts are made than there are opening brackets, and they
end with the whole name or with what a single reading finds after the first bracket. A cut at
whatever depth neither shortens nor lengthens what is found, which stands in the name between an
opening bracket and the first stop after the first bracket, or the end. -/
theorem metric_of_scan (s : Text) :
    ∃ inner passes, passes ≤ s.count bracket ∧ Descends passes s inner ∧
      ofName s = Text.trim Text.isQuote (Text.trim Text.isBlank inner) ∧
      ((bracket ∉ s ∧ inner = s) ∨
        ∃ before rest, s = before ++ bracket :: rest ∧ bracket ∉ before ∧ inner = scan [] rest ∧
          (∀ depth, innermost (before ++ bracket :: firstArgument depth rest) = inner) ∧
          ∃ front after, bracket :: rest = front ++ bracket :: (inner ++ after) ∧
            (∀ c ∈ front, ¬ IsStop c) ∧ (∀ c ∈ inner, IsPlain c) ∧
            ∀ c ∈ after.head?, IsStop c) := by
  obtain ⟨passes, few, descends⟩ := exists_descends s
  refine ⟨innermost s, passes, few, descends, rfl, ?_⟩
  rcases afterBracket?_cases s with ⟨free, no_call⟩ | ⟨before, rest, rfl, free, some_call⟩
  · exact .inl ⟨free, by rw [innermost_eq_scan, no_call, Option.map_none, Option.getD_none]⟩
  · right
    have found (rest : Text) : innermost (before ++ bracket :: rest) = scan [] rest := by
      rw [innermost_eq_scan, afterBracket?_append free, Option.map_some, Option.getD_some]
    rw [found]
    refine ⟨before, rest, rfl, free, rfl, ?_, scan_between [] (by simp) rest⟩
    intro depth
    rw [found, scan_firstArgument]

/-- A call with a gap for its first argument. What follows the gap may be further arguments after a
comma, a closing bracket, both with any text after them, or nothing at all. -/
structure Call where
  function : Text
  rest : Text
  plain : ∀ c ∈ function, IsPlain c
  stops : ∀ c ∈ rest.head?, IsStop c

/-- A text as the first argument of a call, itself the first argument of the call before it, and so
on. -/
def wrap (calls : List Call) (inner : Text) : Text :=
  calls.foldr (fun call s => call.function ++ bracket :: (s ++ call.rest)) inner

theorem scan_append (plain : ∀ c ∈ s, IsPlain c) (read rest : Text) :
    scan read (s ++ rest) = scan (read ++ s) rest := by
  induction s generalizing read with
  | nil => rw [List.nil_append, List.append_nil]
  | cons c s ih =>
    rw [List.cons_append, scan_plain (plain c (by simp)),
      ih fun d member => plain d (List.mem_cons_of_mem _ member), List.append_assoc,
      List.singleton_append]

theorem scan_of_stops (stops : ∀ c ∈ rest.head?, IsStop c) (read : Text) :
    scan read rest = read := by
  cases rest with
  | nil => rfl
  | cons c rest => exact scan_stop (stops c rfl)

theorem scan_wrap (calls : List Call) {inner : Text} (plain : ∀ c ∈ inner, IsPlain c)
    (stops : ∀ c ∈ rest.head?, IsStop c) : scan [] (wrap calls inner ++ rest) = inner := by
  induction calls generalizing rest with
  | nil => calc
      scan [] (inner ++ rest) = scan ([] ++ inner) rest := scan_append plain [] rest
      _ = inner := scan_of_stops stops _
  | cons call calls ih =>
    have onward : ∀ c ∈ (call.rest ++ rest).head?, IsStop c := by
      intro c first
      cases following : call.rest with
      | nil =>
        rw [following] at first
        exact stops c first
      | cons d more =>
        apply call.stops
        rw [following] at first ⊢
        exact first
    calc
      scan [] (wrap (call :: calls) inner ++ rest)
        = scan [] (call.function ++ (bracket :: (wrap calls inner ++ (call.rest ++ rest)))) := by
          simp [wrap]
      _ = scan [] (wrap calls inner ++ (call.rest ++ rest)) := by
          rw [scan_append call.plain, scan_open]
      _ = inner := ih onward

theorem innermost_wrap (calls : List Call) {inner : Text} (plain : ∀ c ∈ inner, IsPlain c) :
    innermost (wrap calls inner) = inner := by
  rw [innermost_eq_scan]
  cases calls with
  | nil =>
    have free : bracket ∉ inner := fun member => (plain _ member).1 rfl
    rw [wrap, List.foldr_nil, afterBracket?_of_free free, Option.map_none, Option.getD_none]
  | cons call calls =>
    have free : bracket ∉ call.function := fun member => (call.plain _ member).1 rfl
    rw [wrap, List.foldr_cons, ← wrap, afterBracket?_append free, Option.map_some,
      Option.getD_some, scan_wrap calls plain call.stops]

end Rollup.Metric
