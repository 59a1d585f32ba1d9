import LineAtlas.DebugInfo
import LineAtlas.Proofs.DebugInfo.Layout
import LineAtlas.Proofs.Keyed
import LineAtlas.Proofs.Traversal

/-!
# The nodes of the debug info

A dump is cut into stretches, each a header with the lines up to the next one. Reading it stores one node for each
stretch, made from the lines of that stretch alone, so of stretches with one id the last counts. Within a stretch
each part of the node comes from the last line that carries it, and only a subprogram has any.
-/

namespace LineAtlas.DebugInfo

open Text

/-! ## Lines of a dump -/

def IsHeader (rawLine id tag : String) : Prop :=
  FirstIn HeaderAt (withoutLineEnd rawLine).toList (id, tag)

/-- An attribute with the value of its number, whether or not that can be read. -/
def Attribute.value : Attribute Numeral → Attribute Nat
  | .name v => .name v
  | .linkageName v => .linkageName v
  | .origin id => .origin id
  | .declFile n => .declFile n.value
  | .declLine n => .declLine n.value

theorem Attribute.value_of_read {a : Attribute Numeral} {b : Attribute Nat} (h : a.read = .ok b) :
    a.value = b := by
  cases a with
  | declFile n | declLine n =>
      obtain ⟨v, hv, rfl⟩ := Except.map_eq_ok_iff.1 h
      obtain ⟨-, rfl⟩ := Numeral.read_eq_ok_iff.1 hv
      rfl
  | _ =>
      cases h
      rfl

def Says (rawLine : String) (a : Attribute Nat) : Prop :=
  ∃ written, Carries (withoutLineEnd rawLine).toList written ∧ written.value = a

def headerOf? (rawLine : String) : Option (String × String) :=
  header? (withoutLineEnd rawLine).toList

def attributeOf? (rawLine : String) : Option (Attribute Nat) :=
  (attribute? (withoutLineEnd rawLine).toList).map Attribute.value

theorem headerOf?_eq_some_iff {rawLine id tag : String} :
    headerOf? rawLine = some (id, tag) ↔ IsHeader rawLine id tag :=
  header?_eq_some_iff

theorem headerOf?_eq_none_iff {rawLine : String} :
    headerOf? rawLine = none ↔ ∀ id tag, ¬ IsHeader rawLine id tag := by
  simp only [Option.eq_none_iff_forall_ne_some, ne_eq, Prod.forall, headerOf?_eq_some_iff]

theorem attributeOf?_eq_some_iff {rawLine : String} {a : Attribute Nat} :
    attributeOf? rawLine = some a ↔ Says rawLine a := by
  simp only [attributeOf?, Option.map_eq_some_iff, attribute?_eq_some_iff, Says]

/-! ## The last line that says something -/

/-- The value is that of the last of the lines that give one of the kind, and `none` is that of none. -/
def LastSaid {α : Type} (lines : List String) (kind : α → Attribute Nat) : Option α → Prop
  | some v => ∃ before line after, lines = before ++ line :: after ∧ Says line (kind v) ∧
      ∀ l ∈ after, ∀ w, ¬ Says l (kind w)
  | none => ∀ l ∈ lines, ∀ w, ¬ Says l (kind w)

def recordAll (n : SubprogramNode) (lines : List String) : SubprogramNode :=
  (lines.filterMap attributeOf?).foldl SubprogramNode.record n

theorem recordAll_concat (n : SubprogramNode) (lines : List String) (line : String) :
    recordAll n (lines ++ [line]) =
      match attributeOf? line with
      | some a => (recordAll n lines).record a
      | none => recordAll n lines := by
  rw [recordAll, List.filterMap_append]
  cases hline : attributeOf? line with
  | some a => simp [hline, recordAll]
  | none => simp [hline, recordAll]

theorem lastSaid_concat_iff {α : Type} {lines : List String} {line : String} {kind : α → Attribute Nat}
    {o : Option α} : LastSaid (lines ++ [line]) kind o ↔
      (∃ v, Says line (kind v) ∧ o = some v) ∨ (∀ w, ¬ Says line (kind w)) ∧ LastSaid lines kind o := by
  cases o with
  | none =>
      simp only [LastSaid, List.forall_mem_append, List.forall_mem_singleton]
      simp [and_comm]
  | some v =>
      simp only [LastSaid, Option.some.injEq, exists_eq_right']
      exact Keyed.last_concat_iff (P := fun _ l => Says l (kind v)) (Q := fun l => ∀ w, ¬ Says l (kind w))

/-- Attributes of one kind set this part of a node, and no others do. -/
structure SetBy {α : Type} (part : SubprogramNode → Option α) (kind : α → Attribute Nat) : Prop where
  set : ∀ (n : SubprogramNode) v, part (n.record (kind v)) = some v
  keep : ∀ (n : SubprogramNode) a, (∀ v, a ≠ kind v) → part (n.record a) = part n

namespace SetBy

variable {α : Type} {part : SubprogramNode → Option α} {kind : α → Attribute Nat} (h : SetBy part kind)
include h

theorem kind_inj {v w : α} : kind v = kind w ↔ v = w := by
  constructor
  · intro heq
    have hv := h.set { id := "" } v
    rw [heq, h.set] at hv
    exact (Option.some.inj hv).symm
  · rintro rfl
    rfl

/-- The part is the last that was said of it. -/
theorem lastSaid_iff {n : SubprogramNode} (hn : part n = none) {lines : List String} {o : Option α} :
    LastSaid lines kind o ↔ o = part (recordAll n lines) := by
  induction lines using List.reverseRecOn generalizing o with
  | nil => cases o <;> simp [LastSaid, recordAll, hn]
  | append_singleton lines line ih =>
      rw [lastSaid_concat_iff, ih, recordAll_concat]
      simp only [← attributeOf?_eq_some_iff]
      cases hline : attributeOf? line with
      | none => simp
      | some a =>
          by_cases hkind : ∃ v, a = kind v
          · obtain ⟨v, rfl⟩ := hkind
            simp [h.kind_inj, h.set]
          · have hother : ∀ v, a ≠ kind v := fun v heq => hkind ⟨v, heq⟩
            simp [hother, h.keep _ a hother]

end SetBy

theorem setBy_name : SetBy SubprogramNode.name .name where
  set _ _ := rfl
  keep n a ha := by cases a <;> simp_all [SubprogramNode.record]

theorem setBy_linkageName : SetBy SubprogramNode.linkageName .linkageName where
  set _ _ := rfl
  keep n a ha := by cases a <;> simp_all [SubprogramNode.record]

theorem setBy_origin : SetBy SubprogramNode.origin .origin where
  set _ _ := rfl
  keep n a ha := by cases a <;> simp_all [SubprogramNode.record]

theorem setBy_fileIndex : SetBy SubprogramNode.fileIndex .declFile where
  set _ _ := rfl
  keep n a ha := by cases a <;> simp_all [SubprogramNode.record]

theorem setBy_line : SetBy SubprogramNode.line .declLine where
  set _ _ := rfl
  keep n a ha := by cases a <;> simp_all [SubprogramNode.record]

structure Describes (lines : List String) (tag : String) (n : SubprogramNode) : Prop where
  subprogram : tag = "subprogram" → LastSaid lines .name n.name ∧ LastSaid lines .linkageName n.linkageName ∧
    LastSaid lines .origin n.origin ∧ LastSaid lines .declFile n.fileIndex ∧ LastSaid lines .declLine n.line
  other : tag ≠ "subprogram" → n.name = none ∧ n.linkageName = none ∧ n.origin = none ∧ n.fileIndex = none ∧
    n.line = none

def nodeOf (id tag : String) (lines : List String) : SubprogramNode :=
  if tag = "subprogram" then recordAll { id } lines else { id }

theorem id_recordAll (n : SubprogramNode) (lines : List String) : (recordAll n lines).id = n.id := by
  induction lines using List.reverseRecOn with
  | nil => rfl
  | append_singleton lines line ih =>
      rw [recordAll_concat]
      cases attributeOf? line with
      | none => exact ih
      | some a =>
          cases a <;> exact ih

theorem node_eq_iff {n m : SubprogramNode} : n = m ↔ n.id = m.id ∧ n.name = m.name ∧
    n.linkageName = m.linkageName ∧ n.origin = m.origin ∧ n.fileIndex = m.fileIndex ∧ n.line = m.line := by
  cases n
  cases m
  simp only [SubprogramNode.mk.injEq]
  tauto

theorem eq_nodeOf_iff {id tag : String} {lines : List String} {n : SubprogramNode} :
    n = nodeOf id tag lines ↔ n.id = id ∧ Describes lines tag n := by
  rw [nodeOf]
  by_cases htag : tag = "subprogram"
  · rw [if_pos htag, node_eq_iff, id_recordAll, ← setBy_name.lastSaid_iff rfl,
      ← setBy_linkageName.lastSaid_iff rfl, ← setBy_origin.lastSaid_iff rfl,
      ← setBy_fileIndex.lastSaid_iff rfl, ← setBy_line.lastSaid_iff rfl]
    exact and_congr_right' ⟨fun h => ⟨fun _ => h, fun hne => absurd htag hne⟩, fun h => h.subprogram htag⟩
  · rw [if_neg htag, node_eq_iff]
    exact and_congr_right' ⟨fun h => ⟨fun heq => absurd heq htag, fun _ => h⟩, fun h => h.other htag⟩

/-! ## Stretches -/

structure Stretch where
  header : String
  id : String
  tag : String
  lines : List String

def preamble (lines : List String) : List String :=
  lines.takeWhile fun line => (headerOf? line).isNone

def stretches : List String → List Stretch
  | [] => []
  | line :: lines =>
    match headerOf? line with
    | some (id, tag) => ⟨line, id, tag, preamble lines⟩ :: stretches lines
    | none => stretches lines

def Stretch.node (x : Stretch) : SubprogramNode :=
  nodeOf x.id x.tag x.lines

theorem stretches_cons_of_header {line id tag : String} (h : headerOf? line = some (id, tag))
    (lines : List String) : stretches (line :: lines) = ⟨line, id, tag, preamble lines⟩ :: stretches lines := by
  rw [stretches, h]

theorem stretches_cons_of_none {line : String} (h : headerOf? line = none) (lines : List String) :
    stretches (line :: lines) = stretches lines := by
  rw [stretches, h]

theorem preamble_cons_of_header {line id tag : String} (h : headerOf? line = some (id, tag))
    (lines : List String) : preamble (line :: lines) = [] := by
  simp [preamble, h]

theorem preamble_cons_of_none {line : String} (h : headerOf? line = none) (lines : List String) :
    preamble (line :: lines) = line :: preamble lines := by
  simp [preamble, h]

def body (lines : List String) : List String :=
  lines.dropWhile fun line => (headerOf? line).isNone

theorem preamble_append_body (lines : List String) : preamble lines ++ body lines = lines :=
  List.takeWhile_append_dropWhile

theorem headerOf?_of_mem_preamble {lines : List String} {line : String} (h : line ∈ preamble lines) :
    headerOf? line = none := by
  simpa using List.all_eq_true.1 List.all_takeWhile line h

theorem headerOf?_of_head?_body {lines : List String} {next : String} (h : next ∈ (body lines).head?) :
    headerOf? next ≠ none := by
  have hstop := List.head?_dropWhile_not (fun line => (headerOf? line).isNone) lines
  rw [← body, Option.mem_def.1 h] at hstop
  exact Option.isSome_iff_ne_none.1 (by simpa using hstop)

theorem preamble_append_header {header id tag : String} (h : headerOf? header = some (id, tag))
    (earlier later : List String) : preamble (earlier ++ header :: later) = preamble earlier := by
  induction earlier with
  | nil => exact preamble_cons_of_header h later
  | cons line earlier ih =>
      cases hline : headerOf? line with
      | none => rw [List.cons_append, preamble_cons_of_none hline, preamble_cons_of_none hline, ih]
      | some node => rw [List.cons_append, preamble_cons_of_header hline, preamble_cons_of_header hline]

theorem stretches_body (lines : List String) : stretches (body lines) = stretches lines := by
  induction lines with
  | nil => rfl
  | cons line lines ih =>
      cases hline : headerOf? line with
      | none =>
          rw [stretches_cons_of_none hline, ← ih]
          simp [body, hline]
      | some node => simp [body, hline]

/-- The stretches of some lines do not change when a header follows. -/
theorem stretches_append_header {header id tag : String} (h : headerOf? header = some (id, tag))
    (earlier later : List String) : stretches (earlier ++ header :: later) =
      stretches earlier ++ ⟨header, id, tag, preamble later⟩ :: stretches later := by
  induction earlier with
  | nil => exact stretches_cons_of_header h later
  | cons line earlier ih =>
      cases hline : headerOf? line with
      | none => rw [List.cons_append, stretches_cons_of_none hline, stretches_cons_of_none hline, ih]
      | some node =>
          rw [List.cons_append, stretches_cons_of_header hline, stretches_cons_of_header hline, ih,
            preamble_append_header h]
          rfl

/-- A stretch of a dump is found between the lines before its header and the next header. -/
theorem exists_split_of_stretches {lines : List String} {xs ys : List Stretch} {x : Stretch}
    (h : stretches lines = xs ++ x :: ys) : ∃ before after, lines = before ++ x.header :: (x.lines ++ after) ∧
      headerOf? x.header = some (x.id, x.tag) ∧ (∀ line ∈ x.lines, headerOf? line = none) ∧
      (∀ next ∈ after.head?, headerOf? next ≠ none) ∧ stretches after = ys := by
  induction lines generalizing xs with
  | nil => simp [stretches] at h
  | cons line lines ih =>
      cases hline : headerOf? line with
      | none =>
          rw [stretches_cons_of_none hline] at h
          obtain ⟨before, after, rfl, hrest⟩ := ih h
          exact ⟨line :: before, after, rfl, hrest⟩
      | some node =>
          rw [stretches_cons_of_header hline] at h
          cases xs with
          | nil =>
              obtain ⟨rfl, rfl⟩ := List.cons.inj h
              refine ⟨[], body lines, ?_, hline, fun _ => headerOf?_of_mem_preamble,
                fun _ => headerOf?_of_head?_body, stretches_body lines⟩
              rw [List.nil_append, preamble_append_body]
          | cons y xs =>
              obtain ⟨before, after, rfl, hrest⟩ := ih (List.cons.inj h).2
              exact ⟨line :: before, after, rfl, hrest⟩

/-- Lines without a header between a header and another, or the end, are a stretch. -/
theorem stretches_of_split {header id tag : String} {before stretch after : List String}
    (h : headerOf? header = some (id, tag)) (hstretch : ∀ line ∈ stretch, headerOf? line = none)
    (hafter : ∀ next ∈ after.head?, headerOf? next ≠ none) :
    stretches (before ++ header :: (stretch ++ after)) =
      stretches before ++ ⟨header, id, tag, stretch⟩ :: stretches after := by
  have hcut : preamble (stretch ++ after) = stretch ∧ stretches (stretch ++ after) = stretches after := by
    induction stretch with
    | nil =>
        refine ⟨?_, rfl⟩
        cases after with
        | nil => rfl
        | cons next after =>
            obtain ⟨node, hnode⟩ := Option.ne_none_iff_exists'.1 (hafter next rfl)
            exact preamble_cons_of_header hnode after
    | cons line stretch ih =>
        obtain ⟨hline, hstretch⟩ := List.forall_mem_cons.1 hstretch
        obtain ⟨hpreamble, hstretches⟩ := ih hstretch
        rw [List.cons_append, preamble_cons_of_none hline, stretches_cons_of_none hline, hpreamble, hstretches]
        exact ⟨rfl, rfl⟩
  rw [stretches_append_header h, hcut.1, hcut.2]

theorem map_id_stretches (lines : List String) :
    (stretches lines).map Stretch.id = lines.filterMap fun line => (headerOf? line).map Prod.fst := by
  induction lines with
  | nil => rfl
  | cons line lines ih =>
      cases h : headerOf? line with
      | none => rw [stretches_cons_of_none h, List.filterMap_cons, h, ih]; rfl
      | some node =>
          obtain ⟨id, tag⟩ := node
          rw [stretches_cons_of_header h, List.filterMap_cons, h, List.map_cons, ih]
          rfl

theorem forall_id_ne_iff {lines : List String} {id : String} : (∀ x ∈ stretches lines, x.id ≠ id) ↔
    ∀ line ∈ lines, ∀ tag, ¬ IsHeader line id tag := by
  have hmem : id ∉ (stretches lines).map Stretch.id ↔ ∀ x ∈ stretches lines, x.id ≠ id := by
    simp
  rw [← hmem, map_id_stretches]
  simp [headerOf?_eq_some_iff]

/-! ## Reading -/

/-- What is read so far after one more line, when its number can be read. -/
def stepLine (d : DebugInfo) (rawLine : String) : DebugInfo :=
  match headerOf? rawLine with
  | some (id, tag) => ⟨d.nodes.put id { id }, some id, tag⟩
  | none =>
    match d.current, attributeOf? rawLine with
    | some id, some a =>
      if d.tag = "subprogram" then { d with nodes := d.nodes.change id (·.record a) } else d
    | _, _ => d

theorem stepLine_of_header {rawLine id tag : String} (h : headerOf? rawLine = some (id, tag)) (d : DebugInfo) :
    d.stepLine rawLine = ⟨d.nodes.put id { id }, some id, tag⟩ := by
  rw [stepLine, h]

theorem stepLine_of_none {rawLine : String} (h : headerOf? rawLine = none) (d : DebugInfo) : d.stepLine rawLine =
    match d.current, attributeOf? rawLine with
    | some id, some a =>
      if d.tag = "subprogram" then { d with nodes := d.nodes.change id (·.record a) } else d
    | _, _ => d := by
  rw [stepLine, h]

theorem eq_stepLine_of_step {d d' : DebugInfo} {rawLine : String}
    (h : d.step (withoutLineEnd rawLine).toList = .ok d') : d' = d.stepLine rawLine := by
  rw [step, ← headerOf?] at h
  rw [stepLine]
  cases hheader : headerOf? rawLine with
  | some node =>
      rw [hheader] at h
      exact (Except.ok.inj h).symm
  | none =>
      rw [hheader] at h
      dsimp only at h ⊢
      rw [attributeOf?]
      cases hcurrent : d.current with
      | none =>
          rw [hcurrent] at h
          exact (Except.ok.inj h).symm
      | some id =>
          rw [hcurrent] at h
          cases hline : attribute? (withoutLineEnd rawLine).toList with
          | none =>
              rw [hline] at h
              exact (Except.ok.inj h).symm
          | some a =>
              rw [hline] at h
              dsimp only [Option.map_some] at h ⊢
              split at h
              · rename_i htag
                obtain ⟨b, hb, hd⟩ := Except.bind_eq_ok_iff.1 h
                rw [if_pos htag, Attribute.value_of_read hb]
                exact (Except.ok.inj hd).symm
              · rename_i htag
                rw [if_neg htag]
                exact (Except.ok.inj h).symm

theorem nodeOf_concat (id tag : String) (lines : List String) (line : String) : nodeOf id tag (lines ++ [line]) =
    match attributeOf? line with
    | some a => if tag = "subprogram" then (nodeOf id tag lines).record a else nodeOf id tag lines
    | none => nodeOf id tag lines := by
  rw [nodeOf, nodeOf, recordAll_concat]
  by_cases htag : tag = "subprogram"
  · simp only [if_pos htag]
  · simp only [if_neg htag]
    cases attributeOf? line <;> rfl

/-- The lines up to the next header make up the node that the header has opened. -/
theorem foldl_stepLine_of_open {t : NodeTable} (ht : (Keyed.keys t).Nodup) (id tag : String) {lines : List String}
    (h : ∀ line ∈ lines, headerOf? line = none) :
    lines.foldl stepLine ⟨t.put id { id }, some id, tag⟩ = ⟨t.put id (nodeOf id tag lines), some id, tag⟩ := by
  induction lines using List.reverseRecOn with
  | nil => simp [nodeOf, recordAll]
  | append_singleton lines line ih =>
      obtain ⟨hlines, hline⟩ := List.forall_mem_append.1 h
      rw [List.foldl_concat, ih hlines, stepLine_of_none (hline line (by simp)), nodeOf_concat]
      cases attributeOf? line with
      | none => rfl
      | some a =>
          by_cases htag : tag = "subprogram"
          · simp only [if_pos htag, Keyed.change_put ht]
          · simp only [if_neg htag]

theorem foldl_stepLine_of_noNode {lines : List String} (h : ∀ line ∈ lines, headerOf? line = none) {d : DebugInfo}
    (hd : d.current = none) : lines.foldl stepLine d = d := by
  induction lines with
  | nil => rfl
  | cons line lines ih =>
      obtain ⟨hline, hlines⟩ := List.forall_mem_cons.1 h
      rw [List.foldl_cons, stepLine_of_none hline, hd]
      exact ih hlines

theorem nodup_keys_stepLine {d : DebugInfo} (hd : (Keyed.keys d.nodes).Nodup) (line : String) :
    (Keyed.keys (d.stepLine line).nodes).Nodup := by
  cases h : headerOf? line with
  | some node =>
      rw [stepLine_of_header h]
      exact Keyed.nodup_keys_alter hd _ _
  | none =>
      rw [stepLine_of_none h]
      split
      · split
        · rwa [Keyed.keys_change]
        · exact hd
      · exact hd

/-- Each stretch stores its node, whatever was read before. -/
theorem nodes_foldl_stepLine (lines : List String) {d : DebugInfo} (hd : (Keyed.keys d.nodes).Nodup) :
    (lines.foldl stepLine d).nodes = (stretches lines).foldl (fun t x => t.put x.id x.node)
      ((preamble lines).foldl stepLine d).nodes := by
  induction lines generalizing d with
  | nil => rfl
  | cons line lines ih =>
      rw [List.foldl_cons, ih (nodup_keys_stepLine hd line)]
      cases hline : headerOf? line with
      | none => rw [stretches_cons_of_none hline, preamble_cons_of_none hline, List.foldl_cons]
      | some node =>
          rw [stretches_cons_of_header hline, preamble_cons_of_header hline, stepLine_of_header hline,
            foldl_stepLine_of_open hd _ _ fun _ => headerOf?_of_mem_preamble]
          rfl

theorem outcome_read (lines : List String) : (DebugInfo.read lines).outcome = (format.read lines).outcome := by
  rw [DebugInfo.read, Logged.outcome_bind]
  cases (format.read lines).outcome <;> rfl

theorem state_of_feedLine {r r' : Reading DebugInfo} {rawLine : String}
    (h : (format.feedLine r rawLine).outcome = .ok r') : r'.state = r.state.stepLine rawLine := by
  rcases format.feedLine_cases h with ⟨d, ns, hread, rfl⟩ | ⟨hread, -⟩
  · obtain ⟨d', hd, heq⟩ := Except.map_eq_ok_iff.1 hread
    cases heq
    exact eq_stepLine_of_step hd
  · obtain ⟨d', -, heq⟩ := Except.map_eq_ok_iff.1 hread
    cases heq

theorem state_of_feed {r r' : Reading DebugInfo} {lines : List String}
    (h : (format.feed r lines).outcome = .ok r') : r'.state = lines.foldl stepLine r.state := by
  induction lines generalizing r with
  | nil =>
      cases h
      rfl
  | cons line lines ih =>
      rw [DumpFormat.feed_cons, Logged.outcome_bind_eq_ok_iff] at h
      obtain ⟨r₁, hline, hlines⟩ := h
      rw [ih hlines, state_of_feedLine hline, List.foldl_cons]

/-- The nodes of a dump are those of its stretches. -/
theorem nodes_of_read {lines : List String} {r : Reading DebugInfo}
    (h : (DebugInfo.read lines).outcome = .ok r) :
    r.state.nodes = Keyed.collect (fun x => some (x.id, x.node)) (stretches lines) := by
  rw [outcome_read] at h
  have hpreamble : (preamble lines).foldl stepLine empty = empty :=
    foldl_stepLine_of_noNode (fun _ => headerOf?_of_mem_preamble) rfl
  have hempty : (Keyed.keys empty.nodes).Nodup := .nil
  have hbegin : format.begin.state = empty := rfl
  rw [state_of_feed h, hbegin, nodes_foldl_stepLine lines hempty, hpreamble]
  rfl

/-- The last header of the node has this tag and is followed by these lines, up to the next header or the end. -/
def LastStretch (lines : List String) (id tag : String) (stretch : List String) : Prop :=
  ∃ before header after, lines = before ++ header :: (stretch ++ after) ∧ IsHeader header id tag ∧
    (∀ line ∈ stretch, ∀ id' tag', ¬ IsHeader line id' tag') ∧
    (∀ next ∈ after.head?, ∃ id' tag', IsHeader next id' tag') ∧
    ∀ line ∈ after, ∀ tag', ¬ IsHeader line id tag'

theorem lastStretch_iff {lines stretch : List String} {id tag : String} :
    LastStretch lines id tag stretch ↔ ∃ xs header ys,
      stretches lines = xs ++ ⟨header, id, tag, stretch⟩ :: ys ∧ ∀ y ∈ ys, y.id ≠ id := by
  have hnext (next : String) : headerOf? next ≠ none ↔ ∃ id' tag', IsHeader next id' tag' := by
    simp [headerOf?_eq_none_iff]
  constructor
  · rintro ⟨before, header, after, rfl, hheader, hstretch, hafter, hlast⟩
    have hnone : ∀ line ∈ stretch, headerOf? line = none :=
      fun line hline => headerOf?_eq_none_iff.2 (hstretch line hline)
    have hsome : ∀ next ∈ after.head?, headerOf? next ≠ none :=
      fun next hmem => (hnext next).2 (hafter next hmem)
    have hstretches : stretches (before ++ header :: (stretch ++ after)) =
        stretches before ++ ⟨header, id, tag, stretch⟩ :: stretches after :=
      stretches_of_split (headerOf?_eq_some_iff.2 hheader) hnone hsome
    exact ⟨stretches before, header, stretches after, hstretches, forall_id_ne_iff.2 hlast⟩
  · rintro ⟨xs, header, ys, hstretches, hlast⟩
    obtain ⟨before, after, rfl, hheader, hstretch, hafter, rfl⟩ := exists_split_of_stretches hstretches
    exact ⟨before, header, after, rfl, headerOf?_eq_some_iff.1 hheader,
      fun line hline => headerOf?_eq_none_iff.1 (hstretch line hline),
      fun next hmem => (hnext next).1 (hafter next hmem), forall_id_ne_iff.1 hlast⟩

/-- A node is made from the lines between the last header with its id and the next header. -/
theorem get?_nodes_eq_some_iff {lines : List String} {r : Reading DebugInfo}
    (hread : (DebugInfo.read lines).outcome = .ok r) {id : String} {n : SubprogramNode} :
    r.state.nodes.get? id = some n ↔
      n.id = id ∧ ∃ tag stretch, LastStretch lines id tag stretch ∧ Describes stretch tag n := by
  simp only [nodes_of_read hread, Keyed.get?_collect_eq_some_iff, lastStretch_iff, Option.some.injEq,
    Prod.mk.injEq, ne_eq, not_and]
  constructor
  · rintro ⟨xs, ⟨header, _, tag, stretch⟩, ys, hstretches, ⟨rfl, hnode⟩, hlast⟩
    obtain ⟨hid, hdescribes⟩ := eq_nodeOf_iff.1 hnode.symm
    exact ⟨hid, tag, stretch, ⟨xs, header, ys, hstretches, fun y hy heq => hlast y hy _ heq rfl⟩, hdescribes⟩
  · rintro ⟨hid, tag, stretch, ⟨xs, header, ys, hstretches, hlast⟩, hdescribes⟩
    exact ⟨xs, ⟨header, id, tag, stretch⟩, ys, hstretches, ⟨rfl, (eq_nodeOf_iff.2 ⟨hid, hdescribes⟩).symm⟩,
      fun y hy _ heq _ => hlast y hy heq⟩

/-- In a dump that is read a node is in the table just if some line is its header, and it is made from the lines
between the last header with its id and the next header. Of a subprogram each part is the last that one of these
lines carries, and a node with another tag has none. Ids are in the order of their first headers. -/
theorem get?_nodes_iff {lines : List String} {r : Reading DebugInfo}
    (hread : (DebugInfo.read lines).outcome = .ok r) :
    (∀ id n, r.state.nodes.get? id = some n ↔
      n.id = id ∧ ∃ tag stretch, LastStretch lines id tag stretch ∧ Describes stretch tag n) ∧
    (∀ id, r.state.nodes.get? id = none ↔ ∀ line ∈ lines, ∀ tag, ¬ IsHeader line id tag) ∧
    Keyed.keys r.state.nodes = (lines.filterMap fun line => (headerOf? line).map Prod.fst).eraseDups ∧
    ∀ line id tag, headerOf? line = some (id, tag) ↔ IsHeader line id tag := by
  have hnodes := nodes_of_read hread
  refine ⟨fun id n => get?_nodes_eq_some_iff hread, ?_, ?_, fun _ _ _ => headerOf?_eq_some_iff⟩
  · intro id
    rw [hnodes, Keyed.get?_collect_eq_none_iff, ← forall_id_ne_iff]
    simp
  · rw [hnodes, Keyed.keys_collect, ← map_id_stretches]
    simp

/-- A subprogram with a parameter, whose name and line are not its own. -/
def withParameter : List String :=
  ["<2d>: (DW_TAG_subprogram)", "DW_AT_name: f", "DW_AT_decl_line: 3", "<40>: (DW_TAG_formal_parameter)",
    "DW_AT_name: x", "DW_AT_decl_line: 4"]

theorem get?_nodes_iff_withParameter : ∃ r, (DebugInfo.read withParameter).outcome = .ok r ∧
    r.state.nodes.get? "2d" = some { id := "2d", name := some "f", line := some 3 } ∧
    ∃ stretch, LastStretch withParameter "2d" "subprogram" stretch ∧
      LastSaid stretch .name (some "f") ∧ LastSaid stretch .declLine (some 3) := by
  have hnodes : (DebugInfo.read withParameter).outcome.toOption.map (·.state.nodes.get? "2d") =
      some (some { id := "2d", name := some "f", line := some 3 }) := by
    decide +kernel
  obtain ⟨r, hread, hnode⟩ := Logged.exists_outcome_eq_ok hnodes
  obtain ⟨hget, -, -, -⟩ := get?_nodes_iff hread
  obtain ⟨-, tag, stretch, hlast, hdescribes⟩ := (hget _ _).1 hnode
  by_cases htag : tag = "subprogram"
  · subst htag
    obtain ⟨hname, -, -, -, hline⟩ := hdescribes.subprogram rfl
    exact ⟨r, hread, hnode, stretch, hlast, hname, hline⟩
  · cases (hdescribes.other htag).1

end LineAtlas.DebugInfo
