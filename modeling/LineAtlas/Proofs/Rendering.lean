import LineAtlas.Proofs.Rendering.Header
import Mathlib.Data.List.SplitBy

/-!
# Listings put together

A listing is written in one pass. What has been written is never changed, and what comes below depends on
the entry of the last instruction alone, so the listing of two parts is that of the one followed by that of
the other: with an empty line between them where another entry begins, without the second header where the
entry goes on. Hence a listing is the runs of its entries, each under one header.
-/

namespace LineAtlas.Rendering

/-! ## One pass -/

/-- A listing while it is written: its lines so far and the entry of the last instruction. There is an
entry, whatever its name, once there are lines. -/
structure Page where
  lines : List String
  entry : Option String
  entry_isSome : entry.isSome = !lines.isEmpty

namespace Page

def blank : Page := ⟨[], none, rfl⟩

/-- What comes before the line of an instruction: a header unless the entry goes on, set off from what is
written above. -/
def opening (p : Page) (a : AnnotatedInstruction) : List String :=
  if p.entry = some a.entry then []
  else if p.lines.isEmpty then [header a]
  else ["", header a]

def write (p : Page) (a : AnnotatedInstruction) : Page where
  lines := p.lines ++ (p.opening a ++ [instruction a])
  entry := some a.entry
  entry_isSome := by simp

theorem listingAfter_cons (p : Page) (a : AnnotatedInstruction) (xs : List AnnotatedInstruction) :
    listingAfter p.entry (a :: xs) =
      p.opening a ++ [instruction a] ++ listingAfter (some a.entry) xs := by
  have hbegun := p.entry_isSome
  rw [listingAfter, opening]
  split
  · rfl
  · cases hlines : p.lines.isEmpty <;> rw [hlines] at hbegun <;> simp [hbegun]

theorem lines_foldl_write (p : Page) (xs : List AnnotatedInstruction) :
    (xs.foldl write p).lines = p.lines ++ listingAfter p.entry xs := by
  induction xs generalizing p with
  | nil => simp [listingAfter]
  | cons a xs ih =>
      rw [List.foldl_cons, ih, p.listingAfter_cons, write]
      simp only [List.append_assoc]

theorem entry_foldl_write (p : Page) {xs : List AnnotatedInstruction} (h : xs ≠ []) :
    (xs.foldl write p).entry = some (xs.getLast h).entry := by
  conv_lhs => rw [← List.dropLast_append_getLast h, List.foldl_append]
  rfl

theorem lines_foldl_write_blank (xs : List AnnotatedInstruction) :
    (xs.foldl write blank).lines = listing xs :=
  lines_foldl_write blank xs

end Page

/-! ## Two parts -/

theorem listing_append {xs : List AnnotatedInstruction} (h : xs ≠ []) (ys : List AnnotatedInstruction) :
    listing (xs ++ ys) = listing xs ++ listingAfter (some (xs.getLast h).entry) ys := by
  rw [← Page.lines_foldl_write_blank, List.foldl_append, Page.lines_foldl_write,
    Page.lines_foldl_write_blank, Page.entry_foldl_write _ h]

theorem listing_append_of_ne {xs ys : List AnnotatedInstruction} (hx : xs ≠ []) (hy : ys ≠ [])
    (h : (xs.getLast hx).entry ≠ (ys.head hy).entry) :
    listing (xs ++ ys) = listing xs ++ [""] ++ listing ys := by
  rw [listing_append hx, List.append_assoc]
  cases ys with
  | nil => exact absurd rfl hy
  | cons b ys =>
      have hother : some (xs.getLast hx).entry ≠ some b.entry := fun he => h (Option.some.inj he)
      simp [listing, listingAfter, hother]

theorem listing_append_of_eq {xs ys : List AnnotatedInstruction} (hx : xs ≠ []) (hy : ys ≠ [])
    (h : (xs.getLast hx).entry = (ys.head hy).entry) :
    listing (xs ++ ys) = listing xs ++ (listing ys).tail := by
  rw [listing_append hx, h]
  cases ys with
  | nil => exact absurd rfl hy
  | cons b ys => simp [listing, listingAfter]

/-! ## Runs -/

def entryRuns (xs : List AnnotatedInstruction) : List (List AnnotatedInstruction) :=
  xs.splitBy fun a b => a.entry == b.entry

/-- Runs of one entry each, of which none goes on in the next. -/
structure MaximalRuns (runs : List (List AnnotatedInstruction)) : Prop where
  notEmpty : ∀ run ∈ runs, run ≠ []
  oneEntry : ∀ run ∈ runs, ∀ a ∈ run, ∀ b ∈ run, a.entry = b.entry
  maximal : runs.IsChain fun run next => ∀ a ∈ run, ∀ b ∈ next, a.entry ≠ b.entry

theorem flatten_entryRuns (xs : List AnnotatedInstruction) : (entryRuns xs).flatten = xs :=
  List.flatten_splitBy _ xs

theorem oneEntry_of_isChain {run : List AnnotatedInstruction}
    (h : run.IsChain fun a b => (a.entry == b.entry) = true) :
    ∀ a ∈ run, ∀ b ∈ run, a.entry = b.entry := by
  let Together (a b : AnnotatedInstruction) : Prop := a.entry = b.entry
  have : Trans Together Together Together := ⟨Eq.trans⟩
  have : Std.Symm Together := ⟨fun _ _ => Eq.symm⟩
  have hself : ∀ a ∈ run, Together a a := fun _ _ => rfl
  have hchain : run.IsChain Together := h.imp fun _ _ => beq_iff_eq.1
  intro a ha b hb
  exact hchain.pairwise.forall_of_forall hself ha hb

theorem maximalRuns_entryRuns (xs : List AnnotatedInstruction) : MaximalRuns (entryRuns xs) := by
  have hone : ∀ run ∈ entryRuns xs, ∀ a ∈ run, ∀ b ∈ run, a.entry = b.entry :=
    fun run hrun => oneEntry_of_isChain (List.isChain_of_mem_splitBy hrun)
  refine ⟨fun run hrun => List.ne_nil_of_mem_splitBy hrun, hone, ?_⟩
  apply (List.isChain_getLast_head_splitBy _ xs).imp_of_mem_imp
  rintro run next hrun hnext ⟨hne, hne', hdiffer⟩ a ha b hb hab
  have hmeet : (run.getLast hne).entry = (next.head hne').entry :=
    calc (run.getLast hne).entry = a.entry := hone run hrun _ (List.getLast_mem hne) a ha
      _ = b.entry := hab
      _ = (next.head hne').entry := hone next hnext b hb _ (List.head_mem hne')
  rw [hmeet, beq_self_eq_true] at hdiffer
  cases hdiffer

theorem MaximalRuns.tail {run : List AnnotatedInstruction} {runs : List (List AnnotatedInstruction)}
    (h : MaximalRuns (run :: runs)) : MaximalRuns runs where
  notEmpty r hr := h.notEmpty r (List.mem_cons_of_mem _ hr)
  oneEntry r hr := h.oneEntry r (List.mem_cons_of_mem _ hr)
  maximal := h.maximal.tail

def runLines : List AnnotatedInstruction → List String
  | [] => []
  | a :: rest => header a :: (a :: rest).map instruction

theorem listingAfter_of_forall {e : String} {xs : List AnnotatedInstruction}
    (h : ∀ a ∈ xs, a.entry = e) : listingAfter (some e) xs = xs.map instruction := by
  induction xs with
  | nil => rfl
  | cons a xs ih =>
      obtain ⟨rfl, hxs⟩ := List.forall_mem_cons.1 h
      rw [listingAfter, if_pos rfl, ih hxs, List.map_cons]

theorem listing_of_oneEntry {run : List AnnotatedInstruction}
    (h : ∀ a ∈ run, ∀ b ∈ run, a.entry = b.entry) : listing run = runLines run := by
  cases run with
  | nil => rfl
  | cons a rest =>
      have hrest : ∀ b ∈ rest, b.entry = a.entry :=
        fun b hb => h b (List.mem_cons_of_mem _ hb) a List.mem_cons_self
      simp [listing, listingAfter, runLines, listingAfter_of_forall hrest]

theorem MaximalRuns.listing_flatten {runs : List (List AnnotatedInstruction)} (h : MaximalRuns runs) :
    listing runs.flatten = [""].intercalate (runs.map runLines) := by
  induction runs with
  | nil => rfl
  | cons run runs ih =>
      have hrun : listing run = runLines run := listing_of_oneEntry (h.oneEntry run List.mem_cons_self)
      cases runs with
      | nil => simpa using hrun
      | cons next runs =>
          have hne : run ≠ [] := h.notEmpty run List.mem_cons_self
          obtain ⟨b, more, rfl⟩ := List.exists_cons_of_ne_nil (h.notEmpty next (by simp))
          have hother : (run.getLast hne).entry ≠ b.entry :=
            (List.isChain_cons_cons.1 h.maximal).1 _ (List.getLast_mem hne) b List.mem_cons_self
          have hsplit : listing (run ++ ((b :: more) :: runs).flatten) =
              listing run ++ [""] ++ listing ((b :: more) :: runs).flatten :=
            listing_append_of_ne hne (List.cons_ne_nil b _) hother
          rw [List.flatten_cons, hsplit, ih h.tail, hrun]
          simp only [List.map_cons, List.intercalate_cons_cons]

theorem listing_eq_intercalate (xs : List AnnotatedInstruction) :
    listing xs = [""].intercalate ((entryRuns xs).map runLines) := by
  rw [← (maximalRuns_entryRuns xs).listing_flatten, flatten_entryRuns]

/-! ## Headers taken out and read -/

theorem filter_listingAfter (previous : Option String) (xs : List AnnotatedInstruction) :
    (listingAfter previous xs).filter (!isHeading ·) = xs.map instruction := by
  have hempty : isHeading "" = true := rfl
  induction xs generalizing previous with
  | nil => rfl
  | cons a xs ih =>
      rw [listingAfter]
      split_ifs <;> simp [isHeading_header, isHeading_instruction, hempty, ih]

theorem filterMap_intercalate {f : String → Option α} (hf : f "" = none) (blocks : List (List String)) :
    ([""].intercalate blocks).filterMap f = blocks.flatMap (List.filterMap f) := by
  induction blocks with
  | nil => rfl
  | cons block blocks ih =>
      cases blocks with
      | nil => simp
      | cons next blocks =>
          rw [List.intercalate_cons_cons, List.filterMap_append, List.filterMap_append, ih]
          simp [hf]

theorem filterMap_runLines (run : List AnnotatedInstruction) : (runLines run).filterMap readHeader? =
    (run.head?.map fun a => (a.instruction.address, a.entry)).toList := by
  have hinstructions : (run.map instruction).filterMap readHeader? = [] := by
    simp [readHeader?_instruction]
  cases run with
  | nil => rfl
  | cons a rest =>
      rw [runLines, List.filterMap_cons_some (readHeader?_header a), hinstructions]
      rfl

theorem filterMap_listing (xs : List AnnotatedInstruction) : (listing xs).filterMap readHeader? =
    (entryRuns xs).filterMap fun run => run.head?.map fun a => (a.instruction.address, a.entry) := by
  rw [listing_eq_intercalate, filterMap_intercalate readHeader?_empty, List.flatMap_map,
    List.filterMap_eq_flatMap_toList]
  exact List.flatMap_congr fun run _ => filterMap_runLines run

/-- Listings are put together from those of their parts: an empty line stands between two parts where
another entry begins, and where the entry goes on the second part has no header. Every listing is therefore
that of its maximal runs of one entry, with empty lines between them. The headers that are read in it are
one for each run, with the name of the entry and the address of the first instruction; the lines left
without headers and empty lines are those of the instructions in order. -/
theorem listing_composes :
    (∀ (xs ys : List AnnotatedInstruction) (hx : xs ≠ []) (hy : ys ≠ []),
      ((xs.getLast hx).entry ≠ (ys.head hy).entry →
        listing (xs ++ ys) = listing xs ++ [""] ++ listing ys) ∧
      ((xs.getLast hx).entry = (ys.head hy).entry →
        listing (xs ++ ys) = listing xs ++ (listing ys).tail)) ∧
    ∀ xs : List AnnotatedInstruction,
      let runs := entryRuns xs
      runs.flatten = xs ∧ MaximalRuns runs ∧
        listing xs = [""].intercalate (runs.map runLines) ∧
        (listing xs).filterMap readHeader? =
          runs.filterMap (fun run => run.head?.map fun a => (a.instruction.address, a.entry)) ∧
        (listing xs).filter (!isHeading ·) = xs.map instruction := by
  constructor
  · intro xs ys hx hy
    exact ⟨listing_append_of_ne hx hy, listing_append_of_eq hx hy⟩
  · intro xs runs
    exact ⟨flatten_entryRuns xs, maximalRuns_entryRuns xs, listing_eq_intercalate xs,
      filterMap_listing xs, filter_listingAfter none xs⟩

def instructionsAt (places : List (String × Int)) : List AnnotatedInstruction :=
  places.map fun (entry, address) => ⟨".text", entry, ⟨address, "90", some "nop"⟩, none⟩

/-- An entry without a name goes on from one part to the next, and then the first entry comes again. -/
theorem listing_composes_enteredAgain :
    let front := instructionsAt [("f", 0), ("", 1)]
    let back := instructionsAt [("", 2), ("f", 3), ("f", 4)]
    ∃ (hfront : front ≠ []) (hback : back ≠ []),
      (front.getLast hfront).entry = (back.head hback).entry ∧
      listing (front ++ back) = listing front ++ (listing back).tail ∧
      (front.getLast hfront).entry ≠ (front.head hfront).entry ∧
      listing (front ++ front) = listing front ++ [""] ++ listing front ∧
      (listing (front ++ back)).filterMap readHeader? = [(0, "f"), (1, ""), (3, "f")] ∧
      (listing (front ++ back)).length = 10 := by
  intro front back
  have hfront : front ≠ [] := List.cons_ne_nil _ _
  have hback : back ≠ [] := List.cons_ne_nil _ _
  have hsame : (front.getLast hfront).entry = (back.head hback).entry := rfl
  have hother : (front.getLast hfront).entry ≠ (front.head hfront).entry := by
    change "" ≠ "f"
    decide
  obtain ⟨-, -, -, hheaders, -⟩ := listing_composes.2 (front ++ back)
  exact ⟨hfront, hback, hsame, (listing_composes.1 front back hfront hback).2 hsame, hother,
    (listing_composes.1 front front hfront hfront).1 hother, hheaders.trans (by decide),
    by decide +kernel⟩

end LineAtlas.Rendering
