import LineAtlas.Proofs.Listing.Item
import LineAtlas.Proofs.SymbolTable

/-!
# Printed symbol tables

The rows that the dump tool prints for symbols, with the title, the banner and empty lines between them. A
row is cut at the right columns whatever its flags and its name hold, and no other line passes for a row.
So a table read from printed lines groups exactly the symbols that were printed.
-/

namespace LineAtlas.SymbolTable

open Text
open Listing (spaces isGap_spaces oneLine_spaces head?_dropWhile dropWhile_of_hex? isBanner_path)

/-- What a line is printed for. The address and the size of a row have at least `width` and `sizeWidth`
digits; `gap` more spaces than needed stand before the name. -/
inductive Item
  | row (width : Nat) (flags : String) (sizeWidth gap : Nat) (symbol : Row)
  | empty
  | title
  | banner (path : String) (gap : Nat) (fileFormat : String)
  deriving DecidableEq, Repr

def IsFlags (flags : String) : Prop :=
  flags.toList.length = 7 ∧ '\n' ∉ flags.toList

instance (flags : String) : Decidable (IsFlags flags) :=
  instDecidableAnd

def IsWord (word : String) : Prop :=
  word.toList ≠ [] ∧ ∀ c ∈ word.toList, isBlank c = false

instance (word : String) : Decidable (IsWord word) :=
  haveI := List.decidableBAll (fun c => isBlank c = false) word.toList
  instDecidableAnd

theorem IsWord.oneLine {word : String} (h : IsWord word) : OneLine word := by
  intro c hc
  have hblank := h.2 c hc
  refine ⟨?_, ?_⟩ <;> rintro rfl <;> cases hblank

namespace Item

def text : Item → String
  | row width flags sizeWidth gap symbol =>
    s!"{hexPadded width symbol.address} {flags} {symbol.home}\t" ++
      s!"{hexPadded sizeWidth symbol.size}{spaces (gap + 1)}{symbol.name}"
  | empty => ""
  | title => "SYMBOL TABLE:"
  | banner path gap fileFormat => s!"{path}:{spaces (gap + 1)}file format {fileFormat}"

def Valid : Item → Prop
  | row _ flags _ _ symbol => IsFlags flags ∧ IsWord symbol.home ∧ OneLine symbol.name ∧
      symbol.name.toList.head?.any isBlank = false
  | empty | title => True
  | banner path _ fileFormat => IsWord path ∧ OneLine fileFormat

instance (item : Item) : Decidable item.Valid :=
  match item with
  | row _ flags _ _ symbol => inferInstanceAs (Decidable (IsFlags flags ∧ IsWord symbol.home ∧
      OneLine symbol.name ∧ symbol.name.toList.head?.any isBlank = false))
  | empty | title => inferInstanceAs (Decidable True)
  | banner path _ fileFormat => inferInstanceAs (Decidable (IsWord path ∧ OneLine fileFormat))

def row? : Item → Option Row
  | row _ _ _ _ symbol => some symbol
  | _ => none

example : (row 16 "g     F" 16 13 ⟨0x1040, ".text", 0x10, "main"⟩).text =
    "0000000000001040 g     F .text\t0000000000000010              main" := by
  decide

end Item

/-! ## Reading back -/

theorem flags?_append {flags : String} (h : IsFlags flags) (rest : List Char) :
    flags? (" ".toList ++ (flags.toList ++ (" ".toList ++ rest))) = some rest := by
  obtain ⟨hlength, hline⟩ := h
  have htake : (flags.toList ++ (" ".toList ++ rest)).take 7 = flags.toList := by
    rw [← hlength, List.take_left]
  have hdrop : (flags.toList ++ (" ".toList ++ rest)).drop 7 = " ".toList ++ rest := by
    rw [← hlength, List.drop_left]
  simp only [flags?, skip?_append, Option.bind_eq_bind, Option.bind_some, htake, hdrop]
  rw [if_pos ⟨hlength, hline⟩]

theorem value?_append (gap : Nat) {name : String} (hname : OneLine name)
    (hhead : name.toList.head?.any isBlank = false) :
    value? ((spaces (gap + 1)).toList ++ name.toList) = some name := by
  rw [value?, blanks?_append (isGap_spaces gap) hhead, Option.bind_some, oneLine?,
    if_neg hname.newline_not_mem, String.ofList_toList]

namespace Item

variable {width sizeWidth gap : Nat} {flags path fileFormat : String} {symbol : Row}

/-- A printed row is cut at its columns. -/
theorem ofText?_row (h : (row width flags sizeWidth gap symbol).Valid) :
    Row.ofText? (row width flags sizeWidth gap symbol).text = some symbol := by
  obtain ⟨hflags, ⟨hne, hhome⟩, hname, hhead⟩ := h
  let behindSize := (spaces (gap + 1)).toList ++ symbol.name.toList
  let behindHome := "\t".toList ++ ((hexPadded sizeWidth symbol.size).toList ++ behindSize)
  let behindAddress := " ".toList ++ (flags.toList ++ (" ".toList ++ (symbol.home.toList ++ behindHome)))
  have hlayout : (row width flags sizeWidth gap symbol).text.toList =
      (hexPadded width symbol.address).toList ++ behindAddress := by
    unfold text
    simp [behindAddress, behindHome, behindSize]
  have haddress : hex? ((hexPadded width symbol.address).toList ++ behindAddress) =
      some (symbol.address, behindAddress) := hex?_hexPadded width symbol.address rfl
  have hcut : flags? behindAddress = some (symbol.home.toList ++ behindHome) :=
    flags?_append hflags (symbol.home.toList ++ behindHome)
  have hrun : run? (fun c => !isBlank c) (symbol.home.toList ++ behindHome) =
      some (symbol.home.toList, behindHome) :=
    run?_append (fun c hc => by rw [hhome c hc]; rfl) hne rfl
  have hblanks : blanks? behindHome = some ((hexPadded sizeWidth symbol.size).toList ++ behindSize) :=
    blanks?_append rfl (head?_hexPadded sizeWidth symbol.size behindSize)
  have hgap : behindSize.head?.any isHexDigit = false := by
    have hspace : isHexDigit ' ' = false := rfl
    simp [behindSize, spaces, List.replicate_succ, hspace]
  have hsize : hex? ((hexPadded sizeWidth symbol.size).toList ++ behindSize) =
      some (symbol.size, behindSize) :=
    hex?_hexPadded sizeWidth symbol.size hgap
  have hvalue : value? behindSize = some symbol.name := value?_append gap hname hhead
  rw [Row.ofText?, hlayout]
  simp only [haddress, hcut, hrun, hblanks, hsize, hvalue, Option.bind_eq_bind, Option.bind_some,
    String.ofList_toList]
  rfl

theorem toList_text_banner : (banner path gap fileFormat).text.toList =
    path.toList ++ ':' :: ((spaces (gap + 1)).toList ++ ("file format ".toList ++ fileFormat.toList)) := by
  unfold text
  simp

/-- Behind a path stands a colon, which ends no address. -/
theorem ofText?_banner (hpath : IsWord path) :
    Row.ofText? (banner path gap fileFormat).text = none := by
  rw [Row.ofText?, toList_text_banner]
  generalize (spaces (gap + 1)).toList ++ ("file format ".toList ++ fileFormat.toList) = rest
  cases h : hex? (path.toList ++ ':' :: rest) with
  | none => rfl
  | some found =>
      obtain ⟨address, cs⟩ := found
      obtain ⟨c, cs', hdrop, hc⟩ := head?_dropWhile (by decide : isHexDigit ':' = false) hpath.2 rest
      have hcs : cs = c :: cs' := (dropWhile_of_hex? h).trans hdrop
      have hspace : ¬ ' ' = c := by
        rintro rfl
        cases hc
      have hflags : flags? (c :: cs') = none := by
        have hskip : skip? " " (c :: cs') = none := after?_eq_none (beq_eq_false_iff_ne.2 hspace)
        rw [flags?, hskip]
        rfl
      simp only [hcs, hflags, Option.bind_eq_bind, Option.bind_some, Option.bind_none]

/-- A line is read as a row if it was printed for one. -/
theorem ofText?_text {item : Item} (h : item.Valid) : Row.ofText? item.text = item.row? := by
  cases item with
  | row width flags sizeWidth gap symbol => exact ofText?_row h
  | empty => rfl
  | title => rfl
  | banner path gap fileFormat => exact ofText?_banner h.1

/-- The other lines carry no symbol. -/
theorem isFiller_text {item : Item} (h : item.Valid) (hrow : item.row? = none) :
    isFiller item.text = true := by
  cases item with
  | row width flags sizeWidth gap symbol => cases hrow
  | empty => rfl
  | title => rfl
  | banner path gap fileFormat =>
      obtain ⟨⟨hne, hpath⟩, hformat⟩ := h
      have hgap : blanks? ((spaces (gap + 1)).toList ++ ("file format ".toList ++ fileFormat.toList)) =
          some ("file format ".toList ++ fileFormat.toList) := blanks?_append (isGap_spaces gap) rfl
      rw [isFiller, toList_text_banner, isBanner_path hpath hne hformat.newline_not_mem hgap,
        Bool.or_true]

/-- Nothing is cut off a printed line. -/
theorem withoutLineEnd_text {item : Item} (h : item.Valid) : withoutLineEnd item.text = item.text := by
  cases item with
  | row width flags sizeWidth gap symbol =>
      let front := s!"{hexPadded width symbol.address} {flags} {symbol.home}\t" ++
        s!"{hexPadded sizeWidth symbol.size}{spaces gap}"
      have hgap : (spaces (gap + 1)).toList = (spaces gap).toList ++ [' '] := by
        simp [spaces, List.replicate_succ']
      have hlayout : (row width flags sizeWidth gap symbol).text.toList =
          front.toList ++ ' ' :: symbol.name.toList := by
        unfold text
        simp [front, hgap]
      have hname : OneLine symbol.name := h.2.2.1
      exact hname.withoutLineEnd_append (by decide) hlayout
  | empty => rfl
  | title => rfl
  | banner path gap fileFormat =>
      have hline : OneLine (banner path gap fileFormat).text := by
        unfold text
        simp +decide [h.1.oneLine, oneLine_spaces, h.2]
      exact hline.withoutLineEnd_eq

end Item

/-! ## Tables -/

/-- A printed line adds its symbol, if it has one, and is never reported. -/
theorem feedLine_text (r : Reading SymbolTable) {item : Item} (h : item.Valid) :
    format.feedLine r item.text =
      ⟨[], .ok { r with state := item.row?.toList.foldl add r.state }⟩ := by
  rw [DumpFormat.feedLine, Item.withoutLineEnd_text h, format_readLine, readLine, Item.ofText?_text h]
  cases hrow : item.row? with
  | some symbol => rfl
  | none =>
      rw [Item.isFiller_text h hrow]
      rfl

theorem feed_text (r : Reading SymbolTable) {items : List Item} (h : ∀ item ∈ items, item.Valid) :
    format.feed r (items.map Item.text) =
      ⟨[], .ok { r with state := (items.filterMap Item.row?).foldl add r.state }⟩ := by
  induction items generalizing r with
  | nil => rfl
  | cons item items ih =>
      obtain ⟨hitem, hitems⟩ := List.forall_mem_cons.1 h
      rw [List.map_cons, DumpFormat.feed_cons, feedLine_text r hitem, Logged.bind_ok, ih _ hitems]
      cases hrow : item.row? <;> simp [hrow]

/-- A symbol table is read back from its printed lines. No line is reported, the sections and the addresses
of each come in the order of their first rows, and under an address are the symbols of all its rows, in
dump order and with repetitions, each ending its size after its address. -/
theorem read_symbols {items : List Item} (h : ∀ item ∈ items, item.Valid) :
    let rows := items.filterMap Item.row?
    let rowsAt (s : String) (a : Int) := rows.filter fun row => row.home = s ∧ (row.address : Int) = a
    ∃ t : SymbolTable, read (items.map Item.text) =
        ⟨[⟨.debug, s!"Parsed symbols for {t.length} sections"⟩], .ok ⟨t, #[]⟩⟩ ∧
      t.keys = (rows.map Row.home).eraseDups ∧
      (∀ s, (t.inSection s).keys =
        ((rows.filter (·.home = s)).map fun row => (row.address : Int)).eraseDups) ∧
      (∀ s a, ((t.inSection s).get? a).getD [] =
        (rowsAt s a).map fun row => ⟨row.name, row.address + row.size⟩) ∧
      ∀ s a, t.namesAt s a = (rowsAt s a).map Row.name := by
  intro rows rowsAt
  have hsymbols (s : String) (a : Int) : (((ofRows rows).inSection s).get? a).getD [] =
      symbolsAt rows s a := by
    rw [inSection_ofRows, symbolsIn, Keyed.get?_tabulate]
    split
    · rfl
    · rename_i hnew
      rw [symbolsAt_eq_nil hnew]
      rfl
  refine ⟨ofRows rows, ?_, ?_, ?_, hsymbols, ?_⟩
  · rw [read, DumpFormat.read, feed_text _ h]
    rfl
  · rw [ofRows_eq, Keyed.keys_tabulate]
    rfl
  · intro s
    rw [inSection_ofRows, symbolsIn, Keyed.keys_tabulate]
    rfl
  · intro s a
    rw [namesAt, hsymbols, symbolsAt, List.map_map]
    rfl

/-- A table with flags that are all blank, an address beyond any machine word, names with blanks, of digits
only and without characters, and a symbol that comes twice with another section in between. -/
def mixedRows : List Item :=
  [.empty, .banner "lib:a.so" 4 "elf64-x86-64", .empty, .title,
    .row 16 "l    df" 16 0 ⟨0, "*ABS*", 0, "main.c"⟩,
    .row 16 "g     F" 16 13 ⟨0x1060, ".text", 0xf, "square"⟩,
    .row 16 "       " 0 0 ⟨0x1060, ".data", 8, "0000 10 f(int, char)"⟩,
    .row 0 "g     F" 16 13 ⟨0x1060, ".text", 0xf, "square"⟩,
    .row 0 "w    \tF" 3 2 ⟨0xfffffffffffffffff, ".text", 1, "1060"⟩,
    .row 1 "l    d " 1 0 ⟨0x1060, ".text", 0, ""⟩, .empty]

theorem read_symbols_mixedRows : (∀ item ∈ mixedRows, item.Valid) ∧
    ∃ t : SymbolTable, read (mixedRows.map Item.text) =
        ⟨[⟨.debug, "Parsed symbols for 3 sections"⟩], .ok ⟨t, #[]⟩⟩ ∧
      t.keys = ["*ABS*", ".text", ".data"] ∧
      (t.inSection ".text").keys = [0x1060, 0xfffffffffffffffff] ∧
      ((t.inSection ".text").get? 0xfffffffffffffffff).getD [] = [⟨"1060", 0x100000000000000000⟩] ∧
      t.namesAt ".text" 0x1060 = ["square", "square", ""] ∧
      t.namesAt ".data" 0x1060 = ["0000 10 f(int, char)"] := by
  have hvalid : ∀ item ∈ mixedRows, item.Valid := by decide
  obtain ⟨t, hread, hkeys, haddresses, hsymbols, hnames⟩ := read_symbols hvalid
  have hsections : t.keys = ["*ABS*", ".text", ".data"] := hkeys.trans (by decide)
  have hlength : t.length = 3 := by
    rw [← List.length_map (f := Prod.fst)]
    exact congrArg List.length hsections
  rw [hlength] at hread
  refine ⟨hvalid, t, hread, hsections, (haddresses _).trans ?_, (hsymbols _ _).trans ?_,
    (hnames _ _).trans ?_, (hnames _ _).trans ?_⟩
  · decide
  · decide
  · decide
  · decide

end LineAtlas.SymbolTable
