import LineAtlas.Proofs.Keyed
import LineAtlas.Proofs.Matching.Repetition
import LineAtlas.Proofs.Text.Scan
import LineAtlas.Rendering

/-!
# Source lines and their instructions

Annotating a source file turns the annotation of a listing round: an instruction stands under a line of the
file exactly when one of its positions is on that line, in whatever spelling of the path. It stands there
once and in listing order, so a source line is always printed, with the addresses of its instructions
behind it.
-/

namespace LineAtlas

open Matching (zipIdx_increases)
open Text

namespace AnnotatedInstruction

/-- The instruction comes from a line of a file. A path counts in any spelling. -/
def ComesFrom (a : AnnotatedInstruction) (file : String) (n : Int) : Prop :=
  ∃ ps, a.positions = some ps ∧ ∃ x ∈ ps, x.line = n ∧
    ∃ path, x.file = some path ∧ Path.normalize path = Path.normalize file

theorem mem_linesIn {a : AnnotatedInstruction} {file : String} {n : Int} :
    n ∈ a.linesIn (Path.normalize file) ↔ a.ComesFrom file n := by
  cases hps : a.positions with
  | none => simp [linesIn, ComesFrom, hps]
  | some ps =>
      simp only [linesIn, ComesFrom, hps, Option.getD_some, List.mem_eraseDups, List.mem_filterMap,
        Option.some.injEq, exists_eq_left', Option.ite_none_right_eq_some, Option.map_eq_some_iff]
      exact exists_congr fun x => by tauto

instance (a : AnnotatedInstruction) (file : String) (n : Int) : Decidable (a.ComesFrom file n) :=
  decidable_of_iff _ mem_linesIn

def indicesFrom (listing : List AnnotatedInstruction) (file : String) (n : Int) : List Nat :=
  listing.zipIdx.filterMap fun (a, k) => if a.ComesFrom file n then some k else none

theorem mem_indicesFrom {listing : List AnnotatedInstruction} {file : String} {n : Int} {k : Nat} :
    k ∈ indicesFrom listing file n ↔ ∃ a, listing[k]? = some a ∧ a.ComesFrom file n := by
  simp [indicesFrom, List.mk_mem_zipIdx_iff_getElem?]

theorem lt_of_mem_indicesFrom {listing : List AnnotatedInstruction} {file : String} {n : Int} {k : Nat}
    (h : k ∈ indicesFrom listing file n) : k < listing.length := by
  obtain ⟨a, ha, -⟩ := mem_indicesFrom.1 h
  exact (List.getElem?_eq_some_iff.1 ha).1

theorem indicesFrom_increases (listing : List AnnotatedInstruction) (file : String) (n : Int) :
    (indicesFrom listing file n).Pairwise (· < ·) := by
  rw [indicesFrom, List.pairwise_filterMap]
  apply (zipIdx_increases _).imp
  rintro ⟨a, k⟩ ⟨b, l⟩ hlt i hi j hj
  obtain ⟨-, hi⟩ := Option.ite_none_right_eq_some.1 hi
  obtain ⟨-, hj⟩ := Option.ite_none_right_eq_some.1 hj
  cases hi
  cases hj
  exact hlt

/-- The indices found for a line lead back to the instructions that come from it, in listing order. -/
theorem filterMap_indicesFrom (listing : List AnnotatedInstruction) (file : String) (n : Int) :
    (indicesFrom listing file n).filterMap (listing[·]?) =
      listing.filter fun a => a.ComesFrom file n := by
  have hfirst : listing.filter (fun a => a.ComesFrom file n) = listing.zipIdx.filterMap fun x =>
      if x.1.ComesFrom file n then some x.1 else none := by
    conv_lhs => rw [← List.zipIdx_map_fst 0 listing]
    rw [List.filter_map, ← List.filterMap_eq_map, List.filterMap_filter]
    apply List.filterMap_congr
    intro x _
    simp
  rw [hfirst, indicesFrom, List.filterMap_filterMap]
  apply List.filterMap_congr
  rintro ⟨a, k⟩ hmem
  have hk : listing[k]? = some a := List.mk_mem_zipIdx_iff_getElem?.1 hmem
  by_cases h : a.ComesFrom file n <;> simp [h, hk]

/-! ## In one pass

The lines of a file are not looked for one by one. A table by line is filled while going over the listing once.
-/

theorem getD_get?_noteLines {lines : List Int} (h : lines.Nodup) (t : Keyed Int (List Nat)) (k : Nat)
    (n : Int) : (Keyed.get? (noteLines t k lines) n).getD [] =
      (Keyed.get? t n).getD [] ++ if n ∈ lines then [k] else [] := by
  induction lines generalizing t with
  | nil => simp [noteLines]
  | cons m lines ih =>
      obtain ⟨hm, hlines⟩ := List.nodup_cons.1 h
      have hstep := ih hlines (Keyed.alter t m fun found => found.getD [] ++ [k])
      rw [Keyed.get?_alter] at hstep
      refine hstep.trans ?_
      by_cases hn : n = m
      · subst hn
        simp [hm]
      · simp [hn]

/-- In whatever order the lines of an instruction are noted, the table has all indices in listing order. -/
theorem getD_get?_indexByLine {file : String} {hits : AnnotatedInstruction → List Int}
    (h : ∀ a, (hits a).Nodup ∧ ∀ n, n ∈ hits a ↔ a.ComesFrom file n)
    (listing : List AnnotatedInstruction) (n : Int) :
    (Keyed.get? (indexByLine (listing.map hits)) n).getD [] = indicesFrom listing file n := by
  induction listing using List.reverseRecOn with
  | nil => rfl
  | append_singleton listing a ih =>
      obtain ⟨hnodup, hmem⟩ := h a
      have hconcat : indexByLine ((listing ++ [a]).map hits) =
          noteLines (indexByLine (listing.map hits)) listing.length (hits a) := by
        simp [indexByLine, List.zipIdx_append]
      rw [hconcat, getD_get?_noteLines hnodup, ih, indicesFrom, indicesFrom, List.zipIdx_append,
        List.filterMap_append]
      congr 1
      by_cases hn : a.ComesFrom file n <;> simp [hmem, hn]

def within (count : Nat) (a : AnnotatedInstruction) : AnnotatedInstruction :=
  { a with positions := a.positions.map (List.filter fun x => 1 ≤ x.line ∧ x.line ≤ count) }

theorem comesFrom_within {count : Nat} {a : AnnotatedInstruction} {file : String} {n : Int}
    (hfirst : 1 ≤ n) (hlast : n ≤ count) :
    (a.within count).ComesFrom file n ↔ a.ComesFrom file n := by
  cases hps : a.positions with
  | none => simp [ComesFrom, within, hps]
  | some ps =>
      simp only [ComesFrom, within, hps, Option.map_some, Option.some.injEq, exists_eq_left',
        List.mem_filter, decide_eq_true_eq]
      refine exists_congr fun x => ?_
      constructor
      · rintro ⟨⟨hx, -⟩, hline, hpath⟩
        exact ⟨hx, hline, hpath⟩
      · rintro ⟨hx, rfl, hpath⟩
        exact ⟨⟨hx, hfirst, hlast⟩, rfl, hpath⟩

theorem indicesFrom_within {count : Nat} {n : Int} (hfirst : 1 ≤ n) (hlast : n ≤ count)
    (listing : List AnnotatedInstruction) (file : String) :
    indicesFrom (listing.map (·.within count)) file n = indicesFrom listing file n := by
  rw [indicesFrom, indicesFrom, List.zipIdx_map, List.filterMap_map]
  apply List.filterMap_congr
  rintro ⟨a, k⟩ _
  simp [comesFrom_within hfirst hlast]

end AnnotatedInstruction

namespace Rendering

def numbered (l : AnnotatedSourceLine) : String :=
  alignRight 6 (toString l.number) ++ "  " ++ l.text

def addresses (xs : List AnnotatedInstruction) : List String :=
  xs.map fun a => hexInt a.instruction.address

theorem mapM_addressAt {xs : List AnnotatedInstruction} {ks : List Nat} (h : ∀ k ∈ ks, k < xs.length) :
    ks.mapM (addressAt xs) = .ok (addresses (ks.filterMap (xs[·]?))) := by
  induction ks with
  | nil => rfl
  | cons k ks ih =>
      obtain ⟨hk, hks⟩ := List.forall_mem_cons.1 h
      have hat : xs[k]? = some xs[k] := List.getElem?_eq_getElem hk
      rw [List.mapM_cons, ih hks, addressAt, hat, List.filterMap_cons_some hat]
      rfl

/-! ## Lines that do not end in blanks -/

def EndsInInk (s : String) : Prop :=
  ∃ cs c, s.toList = cs ++ [c] ∧ isBlank c = false

theorem EndsInInk.append (s : String) {t : String} (h : EndsInInk t) : EndsInInk (s ++ t) := by
  obtain ⟨cs, c, ht, hc⟩ := h
  exact ⟨s.toList ++ cs, c, by simp [ht], hc⟩

theorem EndsInInk.trimmed_eq {s : String} (h : EndsInInk s) : trimmed s = s := by
  obtain ⟨cs, c, hs, hc⟩ := h
  rw [trimmed, hs, trimEnd_eq_self_of_getLast hc, ← hs, String.ofList_toList]

theorem endsInInk_hexInt (n : Int) : EndsInInk (hexInt n) := by
  apply EndsInInk.append
  rcases List.eq_nil_or_concat (Nat.toDigits 16 n.natAbs) with hnil | ⟨cs, c, hdigits⟩
  · exact absurd hnil Nat.toDigits_ne_nil
  · have hblank : ∀ c ∈ Nat.toDigits 16 n.natAbs, isBlank c = false :=
      forall_mem_toDigits (by decide) (by decide) _
    rw [hdigits, List.concat_eq_append] at hblank
    refine ⟨cs, c, ?_, hblank c (by simp)⟩
    rw [hexText, hdigits, List.concat_eq_append, String.toList_ofList]

theorem endsInInk_intercalate (sep : String) {words : List String} (hne : words ≠ [])
    (h : ∀ w ∈ words, EndsInInk w) : EndsInInk (sep.intercalate words) := by
  induction words with
  | nil => exact absurd rfl hne
  | cons w words ih =>
      obtain ⟨hw, hwords⟩ := List.forall_mem_cons.1 h
      cases words with
      | nil => simpa using hw
      | cons v words =>
          rw [String.intercalate_cons_cons]
          exact (ih (List.cons_ne_nil _ _) hwords).append _

def withAddresses (l : AnnotatedSourceLine) : List AnnotatedInstruction → String
  | [] => trimmed (numbered l)
  | shown => alignLeft 80 (numbered l) ++ " ; " ++ " ".intercalate (addresses shown)

theorem annotated_addresses (l : AnnotatedSourceLine) (shown : List AnnotatedInstruction) :
    annotated l (addresses shown) = withAddresses l shown := by
  cases shown with
  | nil => rfl
  | cons a shown =>
      have hink : ∀ w ∈ addresses (a :: shown), EndsInInk w := by
        intro w hw
        obtain ⟨b, -, rfl⟩ := List.mem_map.1 hw
        exact endsInInk_hexInt _
      exact ((endsInInk_intercalate " " (List.cons_ne_nil _ _) hink).append _).trimmed_eq

theorem source_eq_map {lines : List AnnotatedSourceLine} {xs : List AnnotatedInstruction}
    (h : ∀ l ∈ lines, ∀ k ∈ l.instructions, k < xs.length) :
    source lines xs = .ok (lines.map fun l => withAddresses l (l.instructions.filterMap (xs[·]?))) := by
  rw [source]
  induction lines with
  | nil => rfl
  | cons l lines ih =>
      obtain ⟨hl, hlines⟩ := List.forall_mem_cons.1 h
      rw [List.mapM_cons, ih hlines, sourceLine, mapM_addressAt hl, List.map_cons, ← annotated_addresses]
      rfl

end Rendering

/-! ## The lines of a file -/

open AnnotatedInstruction

theorem annotateSource_eq (file : String) (text : List String) (listing : List AnnotatedInstruction) :
    annotateSource file text listing = text.zipIdx.map fun (line, k) =>
      ⟨k + 1, String.ofList (dropTrailing (· == '\n') line.toList), indicesFrom listing file (k + 1)⟩ := by
  have hlines (a : AnnotatedInstruction) : (a.linesIn (Path.normalize file)).Nodup ∧
      ∀ n, n ∈ a.linesIn (Path.normalize file) ↔ a.ComesFrom file n :=
    ⟨nodup_eraseDups _, fun _ => mem_linesIn⟩
  rw [annotateSource]
  simp only [getD_get?_indexByLine hlines]

theorem getElem?_annotateSource {file : String} {text : List String}
    {listing : List AnnotatedInstruction} {k : Nat} {line : String} (h : text[k]? = some line) :
    (annotateSource file text listing)[k]? =
      some ⟨k + 1, String.ofList (dropTrailing (· == '\n') line.toList),
        indicesFrom listing file (k + 1)⟩ := by
  simp [annotateSource_eq, h]

theorem instructions_of_mem_annotateSource {file : String} {text : List String}
    {listing : List AnnotatedInstruction} {item : AnnotatedSourceLine}
    (h : item ∈ annotateSource file text listing) :
    item.instructions = indicesFrom listing file item.number := by
  rw [annotateSource_eq] at h
  obtain ⟨⟨line, k⟩, -, rfl⟩ := List.mem_map.1 h
  rfl

theorem annotateSource_within (file : String) (text : List String)
    (listing : List AnnotatedInstruction) :
    annotateSource file text (listing.map (·.within text.length)) =
      annotateSource file text listing := by
  rw [annotateSource_eq, annotateSource_eq]
  apply List.map_congr_left
  rintro ⟨line, k⟩ hmem
  have hk : text[k]? = some line := List.mk_mem_zipIdx_iff_getElem?.1 hmem
  have hlt : k < text.length := (List.getElem?_eq_some_iff.1 hk).1
  have hsame : indicesFrom (listing.map (·.within text.length)) file (k + 1) =
      indicesFrom listing file (k + 1) := indicesFrom_within (by omega) (by omega) listing file
  exact congrArg (AnnotatedSourceLine.mk _ _) hsame

/-- An annotated source file is its listing turned round. Every line has one item, in order, with the
instructions that come from the line, each once and in listing order, and it can be printed: the line has
the addresses of exactly these instructions behind it. Positions on lines that the file does not have
change nothing. -/
theorem annotateSource_inverts (file : String) (text : List String)
    (listing : List AnnotatedInstruction) :
    let items := annotateSource file text listing
    items.length = text.length ∧
      (∀ (k : Nat) (line : String), text[k]? = some line → ∃ item, items[k]? = some item ∧
        item.number = k + 1 ∧
        item.text = String.ofList (dropTrailing (· == '\n') line.toList) ∧
        item.instructions.Pairwise (· < ·) ∧
        (∀ i ∈ item.instructions, i < listing.length) ∧
        ∀ i, i ∈ item.instructions ↔ ∃ a, listing[i]? = some a ∧ a.ComesFrom file (k + 1)) ∧
      Rendering.source items listing = .ok (items.map fun item =>
        Rendering.withAddresses item (listing.filter fun a => a.ComesFrom file item.number)) ∧
      annotateSource file text (listing.map (·.within text.length)) = items := by
  intro items
  refine ⟨by simp [items, annotateSource], ?_, ?_, annotateSource_within file text listing⟩
  · intro k line hk
    exact ⟨_, getElem?_annotateSource hk, rfl, rfl, indicesFrom_increases listing file _,
      fun _ => lt_of_mem_indicesFrom, fun _ => mem_indicesFrom⟩
  · have hbelow : ∀ item ∈ items, ∀ i ∈ item.instructions, i < listing.length :=
      fun item hitem i hi => lt_of_mem_indicesFrom (instructions_of_mem_annotateSource hitem ▸ hi)
    rw [Rendering.source_eq_map hbelow]
    congr 1
    apply List.map_congr_left
    intro item hitem
    rw [instructions_of_mem_annotateSource hitem, filterMap_indicesFrom]

/-- Three instructions with positions in a file that is spelt in several ways, in another, in none, and on
lines that the file does not have. -/
def threeOfOneFile : List AnnotatedInstruction :=
  let instruction (address : Int) (places : List (Option String × Int)) : AnnotatedInstruction :=
    ⟨".text", "f", ⟨address, "c3", none⟩, some (places.map fun x => ⟨x.1, x.2, 0, true, 0⟩)⟩
  [instruction 0 [(some "./a.c", 2), (some "a.c", 2), (some "a.c", 0)],
    instruction 10 [(some "b.c", 2), (none, 1), (some "a.c", 9)],
    instruction 11 [(some "d/../a.c", 1), (some "a.c", 2)]]

theorem annotateSource_inverts_threeOfOneFile :
    let text := ["int f(void)\n", "{ return 0; }\n"]
    let items := annotateSource "a.c" text threeOfOneFile
    items.map AnnotatedSourceLine.instructions = [[2], [0, 2]] ∧
      (∃ item, items[1]? = some item ∧ item.number = 2 ∧ 2 ∈ item.instructions ∧
        1 ∉ item.instructions) ∧
      ∃ printed, Rendering.source items threeOfOneFile = .ok printed := by
  intro text items
  obtain ⟨-, hitems, hprinted, -⟩ := annotateSource_inverts "a.c" text threeOfOneFile
  obtain ⟨item, hitem, hnumber, -, -, -, hmem⟩ := hitems 1 "{ return 0; }\n" rfl
  refine ⟨by decide +kernel, ⟨item, hitem, hnumber, (hmem 2).2 ?_, fun h => ?_⟩, _, hprinted⟩
  · exact ⟨threeOfOneFile[2], rfl, by decide +kernel⟩
  · obtain ⟨a, ha, hfrom⟩ := (hmem 1).1 h
    obtain rfl : threeOfOneFile[1] = a := Option.some.inj ha
    exact absurd hfrom (by decide +kernel)

end LineAtlas
