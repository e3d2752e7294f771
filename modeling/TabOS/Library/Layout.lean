import Mathlib.Data.List.DropRight

/-!
# Laying out a stream in lines of a width

A stream is a list of items and newlines. Laid out in a width, it becomes a page: a line is closed when it holds as many items as
the width, and at a newline, and the last line stays open. A page gives its stream back, and a page whose closed lines end in
newlines exactly where they are shorter than the width is the layout of the stream it gives.
-/

namespace Library

/-- An element of a stream. -/
inductive Token (α : Type*) where
  | item (a : α)
  | newline
  deriving DecidableEq

/-- A line, and whether it was ended by a newline. -/
structure Line (α : Type*) where
  items : List α
  broken : Bool
  deriving DecidableEq

/-- The tokens of a line: its items, and the newline that ended it. -/
def Line.tokens {α : Type*} (l : Line α) : List (Token α) := l.items.map .item ++ if l.broken then [.newline] else []

/-- The tokens of lines. -/
def tokens {α : Type*} (ls : List (Line α)) : List (Token α) := ls.flatMap Line.tokens

/-- A page: the closed lines, and the items of the open one. -/
structure Page (α : Type*) where
  closed : List (Line α)
  current : List α

namespace Page

variable {α : Type*}

/-- The page with nothing on it. -/
def empty : Page α := ⟨[], []⟩

/-- The lines of a page, the open one last. -/
def lines (p : Page α) : List (Line α) := p.closed ++ [⟨p.current, false⟩]

/-- Close the open line and open another. -/
def close (p : Page α) (broken : Bool) : Page α := ⟨p.closed ++ [⟨p.current, broken⟩], []⟩

/-- Put an item on the open line. -/
def put (p : Page α) (a : α) : Page α := ⟨p.closed, p.current ++ [a]⟩

/-- Lay out one more token. -/
def feed (width : Nat) (p : Page α) : Token α → Page α
  | .item a => if width ≤ (p.put a).current.length then (p.put a).close false else p.put a
  | .newline => p.close true

/-- A page whose lines fit the width, and whose closed lines end in newlines exactly where they are shorter. -/
structure Canonical (width : Nat) (p : Page α) : Prop where
  closed : ∀ l ∈ p.closed, l.items.length ≤ width ∧ l.broken = decide (l.items.length < width)
  current : p.current.length < width

end Page

/-- The layout of a stream. -/
def layout {α : Type*} (width : Nat) (ks : List (Token α)) : Page α := ks.foldl (Page.feed width) .empty

variable {α : Type*} {width : Nat}

@[simp] theorem tokens_nil : tokens ([] : List (Line α)) = [] := rfl

@[simp] theorem tokens_cons (l : Line α) (ls : List (Line α)) : tokens (l :: ls) = l.tokens ++ tokens ls := rfl

@[simp] theorem tokens_append (ls ms : List (Line α)) : tokens (ls ++ ms) = tokens ls ++ tokens ms := List.flatMap_append

namespace Page

theorem feed_item (p : Page α) (a : α) :
    p.feed width (.item a) = if width ≤ p.current.length + 1 then (p.put a).close false else p.put a := by
  rw [feed, put, List.length_append, List.length_singleton]

theorem feed_newline (p : Page α) : p.feed width .newline = p.close true := rfl

end Page

/-! ## The stream of a layout -/

theorem Page.tokens_lines (p : Page α) : tokens p.lines = tokens p.closed ++ p.current.map .item := by
  simp [Page.lines, Line.tokens]

theorem Page.tokens_feed (p : Page α) (k : Token α) : tokens (p.feed width k).lines = tokens p.lines ++ [k] := by
  cases k with
  | item a =>
    rw [Page.feed_item]
    split <;> simp [Page.tokens_lines, Page.put, Page.close, Line.tokens]
  | newline => simp [Page.feed_newline, Page.tokens_lines, Page.close, Line.tokens]

/-- A page laid out further has the tokens it had, and then those laid out. -/
theorem Page.tokens_foldl_feed (p : Page α) (ks : List (Token α)) :
    tokens (ks.foldl (Page.feed width) p).lines = tokens p.lines ++ ks := by
  induction ks generalizing p with
  | nil => simp
  | cons k ks ih => rw [List.foldl_cons, ih, Page.tokens_feed, List.append_assoc, List.singleton_append]

/-- A layout gives its stream back. -/
theorem tokens_layout (width : Nat) (ks : List (Token α)) : tokens (layout width ks).lines = ks := by
  rw [layout, Page.tokens_foldl_feed]
  rfl

/-! ## Canonical pages -/

theorem Page.canonical_empty (hw : 0 < width) : (Page.empty : Page α).Canonical width :=
  ⟨fun _ hl => (nomatch hl), hw⟩

/-- Closing a line that fits, with a newline exactly when it is shorter than the width. -/
theorem Page.canonical_close {p : Page α} (hw : 0 < width) {broken : Bool}
    (h : ∀ l ∈ p.closed, l.items.length ≤ width ∧ l.broken = decide (l.items.length < width))
    (hle : p.current.length ≤ width) (hb : broken = decide (p.current.length < width)) : (p.close broken).Canonical width := by
  refine ⟨fun l hl => ?_, hw⟩
  rcases List.mem_append.1 hl with hl | hl
  · exact h l hl
  · obtain rfl := List.mem_singleton.1 hl
    exact ⟨hle, hb⟩

theorem Page.Canonical.feed {p : Page α} (h : p.Canonical width) (k : Token α) : (p.feed width k).Canonical width := by
  have hcurrent := h.current
  have hw : 0 < width := by omega
  cases k with
  | item a =>
    have hput : (p.put a).current.length = p.current.length + 1 := by simp [Page.put]
    rw [Page.feed_item]
    split
    · refine Page.canonical_close (p := p.put a) hw h.closed (by omega) ?_
      rw [eq_comm, decide_eq_false_iff_not]
      omega
    · exact ⟨h.closed, by omega⟩
  | newline => exact Page.canonical_close hw h.closed (by omega) (by simpa using hcurrent)

/-- A layout is canonical. -/
theorem layout_canonical (hw : 0 < width) (ks : List (Token α)) : (layout width ks).Canonical width := by
  have hrun : ∀ (ks : List (Token α)) (p : Page α), p.Canonical width → (ks.foldl (Page.feed width) p).Canonical width := by
    intro ks
    induction ks with
    | nil => exact fun _ h => h
    | cons k ks ih => exact fun p h => ih _ (h.feed k)
  exact hrun ks _ (Page.canonical_empty hw)

/-- Items that do not fill the open line are put on it. -/
theorem Page.foldl_feed_items (p : Page α) (as : List α) (hlt : p.current.length + as.length < width) :
    (as.map Token.item).foldl (Page.feed width) p = ⟨p.closed, p.current ++ as⟩ := by
  induction as generalizing p with
  | nil => simp
  | cons a as ih =>
    rw [List.length_cons] at hlt
    have hput : (p.put a).current.length = p.current.length + 1 := by simp [Page.put]
    rw [List.map_cons, List.foldl_cons, Page.feed_item, if_neg (by omega), ih _ (by omega)]
    simp [Page.put]

/-- The tokens of a closed line of a canonical page put the line on a page whose open line is empty. -/
theorem Page.foldl_feed_line (closed : List (Line α)) (l : Line α) (hw : 0 < width) (hle : l.items.length ≤ width)
    (hb : l.broken = decide (l.items.length < width)) :
    l.tokens.foldl (Page.feed width) ⟨closed, []⟩ = ⟨closed ++ [l], []⟩ := by
  obtain ⟨items, broken⟩ := l
  dsimp only at hle hb
  rcases Nat.lt_or_ge items.length width with hlt | hge
  · rw [decide_eq_true hlt] at hb
    subst hb
    rw [Line.tokens, List.foldl_append, Page.foldl_feed_items _ _ (by simpa using hlt)]
    rfl
  · rw [decide_eq_false (by omega)] at hb
    subst hb
    rcases List.eq_nil_or_concat' items with rfl | ⟨init, a, rfl⟩
    · exact absurd hge (Nat.not_le_of_lt hw)
    · rw [List.length_append, List.length_singleton] at hge hle
      have hinit : (init.map Token.item).foldl (Page.feed width) ⟨closed, []⟩ = ⟨closed, init⟩ :=
        Page.foldl_feed_items ⟨closed, []⟩ init (by simpa using Nat.lt_of_succ_le hle)
      have hlast : Page.feed width ⟨closed, init⟩ (.item a) = ⟨closed ++ [⟨init ++ [a], false⟩], []⟩ := by
        rw [Page.feed_item, if_pos hge]
        rfl
      rw [Line.tokens, List.map_append, List.foldl_append, List.foldl_append, hinit]
      exact hlast

/-- A canonical page is the layout of its tokens. -/
theorem Page.Canonical.layout_tokens {p : Page α} (h : p.Canonical width) : layout width (tokens p.lines) = p := by
  have hw : 0 < width := Nat.lt_of_le_of_lt (Nat.zero_le _) h.current
  have hclosed : ∀ (ls closed : List (Line α)),
      (∀ l ∈ ls, l.items.length ≤ width ∧ l.broken = decide (l.items.length < width)) →
      (tokens ls).foldl (Page.feed width) ⟨closed, []⟩ = ⟨closed ++ ls, []⟩ := by
    intro ls
    induction ls with
    | nil => simp
    | cons l ls ih =>
      intro closed hls
      obtain ⟨hl, hls⟩ := List.forall_mem_cons.1 hls
      rw [tokens_cons, List.foldl_append, Page.foldl_feed_line closed l hw hl.1 hl.2, ih _ hls]
      simp
  rw [Page.tokens_lines, layout, List.foldl_append]
  have hrun := hclosed p.closed [] h.closed
  rw [List.nil_append] at hrun
  rw [Page.empty, hrun, Page.foldl_feed_items _ _ (by simpa using h.current)]
  rfl

/-- Canonical pages with the same lines of items are the same. -/
theorem Page.Canonical.ext {p q : Page α} (hp : p.Canonical width) (hq : q.Canonical width)
    (h : p.lines.map Line.items = q.lines.map Line.items) : p = q := by
  obtain ⟨pc, pl⟩ := p
  obtain ⟨qc, ql⟩ := q
  simp only [Page.lines, List.map_append, List.map_cons, List.map_nil] at h
  obtain ⟨hclosed, hcurrent⟩ := List.append_inj' h rfl
  obtain rfl := List.singleton_inj.1 hcurrent
  have hbroken : ∀ (ls ms : List (Line α)),
      (∀ l ∈ ls, l.items.length ≤ width ∧ l.broken = decide (l.items.length < width)) →
      (∀ l ∈ ms, l.items.length ≤ width ∧ l.broken = decide (l.items.length < width)) →
      ls.map Line.items = ms.map Line.items → ls = ms := by
    intro ls
    induction ls with
    | nil => exact fun ms _ _ hm => (List.map_eq_nil_iff.1 hm.symm).symm
    | cons l ls ih =>
      intro ms hls hms hm
      cases ms with
      | nil => nomatch hm
      | cons m ms =>
        obtain ⟨hl, hls⟩ := List.forall_mem_cons.1 hls
        obtain ⟨hm', hms⟩ := List.forall_mem_cons.1 hms
        obtain ⟨hitems, hrest⟩ := List.cons.inj hm
        have hline : l = m := by
          have hbroken := hl.2
          rw [hitems, ← hm'.2] at hbroken
          cases l
          cases m
          exact Line.mk.injEq .. ▸ ⟨hitems, hbroken⟩
        rw [ih ms hls hms hrest, hline]
  rw [hbroken pc qc hp.closed hq.closed hclosed]

/-! ## Where the newlines stand -/

/-- Newlines before an item can be told. -/
theorem replicate_newline_inj {a b : Nat} {x : α} {ks ms : List (Token α)} :
    List.replicate a .newline ++ .item x :: ks = List.replicate b .newline ++ .item x :: ms ↔ a = b ∧ ks = ms := by
  induction a generalizing b with
  | zero => cases b <;> simp [List.replicate_succ]
  | succ a ih =>
    cases b with
    | zero => simp [List.replicate_succ]
    | succ b => simp [List.replicate_succ, ih]

/-- Lines of the same items give the same tokens, after some newlines, exactly when as many newlines stand before each line that
holds an item, and as many at the end. -/
theorem newlines_tokens_eq_iff (g : Line α → Bool) (ls : List (Line α)) (a b : Nat) :
    List.replicate a .newline ++ tokens ls = List.replicate b .newline ++ tokens (ls.map fun l => ⟨l.items, g l⟩) ↔
      (∀ i (hi : i < ls.length), ls[i].items ≠ [] →
        a + (ls.take i).countP Line.broken = b + (ls.take i).countP g) ∧
      a + ls.countP Line.broken = b + ls.countP g := by
  have hpending : ∀ (c : Nat) (d : Bool) (ks : List (Token α)),
      List.replicate c Token.newline ++ ((if d then [.newline] else []) ++ ks) =
        List.replicate (c + if d then 1 else 0) .newline ++ ks := by
    intro c d ks
    cases d <;> simp [List.replicate_succ']
  induction ls generalizing a b with
  | nil => simp
  | cons l ls ih =>
    have hhead : (∀ i (hi : i < (l :: ls).length), (l :: ls)[i].items ≠ [] →
          a + ((l :: ls).take i).countP Line.broken = b + ((l :: ls).take i).countP g) ↔
        (l.items ≠ [] → a = b) ∧ ∀ i (hi : i < ls.length), ls[i].items ≠ [] →
          a + ((ls.take i).countP Line.broken + if l.broken then 1 else 0) =
            b + ((ls.take i).countP g + if g l then 1 else 0) := by
      constructor
      · intro h
        refine ⟨fun hl => by simpa using h 0 (by simp) hl, fun i hi hne => ?_⟩
        simpa [List.countP_cons] using h (i + 1) (by simpa using hi) hne
      · rintro ⟨hzero, hsucc⟩ i hi hne
        cases i with
        | zero => simpa using hzero hne
        | succ i => simpa [List.countP_cons] using hsucc i (by simpa using hi) hne
    rw [hhead, List.map_cons, tokens_cons, tokens_cons, Line.tokens, Line.tokens, List.countP_cons, List.countP_cons]
    cases hitems : l.items with
    | nil =>
      have hrest := ih (a + if l.broken then 1 else 0) (b + if g l then 1 else 0)
      simp only [List.map_nil, List.nil_append, hpending, hrest]
      refine ⟨fun h => ⟨⟨fun hne => absurd rfl hne, fun i hi hne => ?_⟩, ?_⟩, fun h => ⟨fun i hi hne => ?_, ?_⟩⟩
      · have := h.1 i hi hne
        omega
      · omega
      · have := h.1.2 i hi hne
        omega
      · omega
    | cons x xs =>
      have hrest := ih (if l.broken then 1 else 0) (if g l then 1 else 0)
      have hzero := hpending 0
      simp only [List.replicate_zero, List.nil_append, Nat.zero_add] at hzero
      simp only [List.map_cons, List.cons_append, replicate_newline_inj, List.append_assoc, List.append_cancel_left_eq,
        hzero, hrest]
      refine ⟨fun ⟨hab, h⟩ => ⟨⟨fun _ => hab, fun i hi hne => ?_⟩, ?_⟩, fun h => ⟨h.1.1 (by simp), fun i hi hne => ?_, ?_⟩⟩
      · have := h.1 i hi hne
        omega
      · omega
      · have := h.1.2 i hi hne
        have := h.1.1 (by simp)
        omega
      · have := h.1.1 (by simp)
        omega

/-- Lines of the same items give the same tokens exactly when as many newlines stand before each line that holds an item, and as
many at the end. -/
theorem tokens_eq_iff (g : Line α → Bool) (ls : List (Line α)) :
    tokens ls = tokens (ls.map fun l => ⟨l.items, g l⟩) ↔
      (∀ i (hi : i < ls.length), ls[i].items ≠ [] → (ls.take i).countP Line.broken = (ls.take i).countP g) ∧
      ls.countP Line.broken = ls.countP g := by
  simpa using newlines_tokens_eq_iff g ls 0 0

/-- A page that gives the tokens of lines, whose last one has no newline, and shows them below blank lines, each ended by a
newline, has no such blank line. -/
theorem no_blank_above (ls ps : List (Line α)) (k : Nat) (hne : ls ≠ []) (hlast : ∀ l ∈ ls.getLast?, l.broken = false)
    (hblank : ∀ l ∈ ps.dropLast, l.items = [] → l.broken = true) (htokens : tokens ps = tokens ls)
    (hitems : ps.map Line.items = List.replicate k [] ++ ls.map Line.items) : k = 0 := by
  induction ls generalizing ps k with
  | nil => exact absurd rfl hne
  | cons l ls ih =>
    cases k with
    | zero => rfl
    | succ k =>
      exfalso
      obtain ⟨p, ps, rfl⟩ : ∃ p qs, ps = p :: qs := by
        cases ps with
        | nil => simp [List.replicate_succ] at hitems
        | cons p qs => exact ⟨p, qs, rfl⟩
      simp only [List.map_cons, List.replicate_succ, List.cons_append, List.cons.injEq] at hitems
      obtain ⟨hp, hitems⟩ := hitems
      have hps : ps ≠ [] := by
        rintro rfl
        simp at hitems
      have hbroken : p.broken = true := hblank p (by simp [List.dropLast_cons_of_ne_nil hps]) hp
      have hhead : tokens (p :: ps) = .newline :: tokens ps := by simp [Line.tokens, hp, hbroken]
      rw [hhead, tokens_cons] at htokens
      cases hl : l.items with
      | cons x xs =>
        rw [Line.tokens, hl] at htokens
        nomatch htokens
      | nil =>
        rw [Line.tokens, hl, List.map_nil, List.nil_append] at htokens
        rw [hl] at hitems
        have hls : ls ≠ [] := by
          rintro rfl
          rw [hlast l (by simp)] at htokens
          nomatch htokens
        obtain ⟨m, ms, rfl⟩ := List.exists_cons_of_ne_nil hls
        have hlast' : ∀ x ∈ (m :: ms).getLast?, x.broken = false := fun x hx => hlast x (by simpa using hx)
        have hrep : ∀ n, List.replicate n ([] : List α) ++ [] :: (m :: ms).map Line.items =
            List.replicate (n + 1) [] ++ (m :: ms).map Line.items := by
          intro n
          rw [List.replicate_succ', List.append_assoc, List.singleton_append]
        rw [hrep] at hitems
        cases hb : l.broken with
        | true =>
          rw [hb] at htokens
          have htokens' := (List.cons.inj htokens).2
          have hblank' : ∀ x ∈ ps.dropLast, x.items = [] → x.broken = true := fun x hx =>
            hblank x (by rw [List.dropLast_cons_of_ne_nil hps]; exact List.mem_cons_of_mem _ hx)
          exact absurd (ih ps (k + 1) hls hlast' hblank' htokens' hitems) (by omega)
        | false =>
          rw [hb, ← hhead] at htokens
          refine absurd (ih (p :: ps) (k + 2) hls hlast' hblank htokens ?_) (by omega)
          rw [List.map_cons, hp, hitems]
          rfl

/-! ## Laying lines out again -/

/-- The item that a token is, if it is one. -/
def Token.item? : Token α → Option α
  | .item a => some a
  | .newline => none

/-- The items of a stream. -/
def items (ks : List (Token α)) : List α := ks.filterMap Token.item?

theorem items_tokens (ls : List (Line α)) : items (tokens ls) = (ls.map Line.items).flatten := by
  have hmap : ∀ as : List α, items (as.map Token.item) = as := by
    intro as
    induction as with
    | nil => rfl
    | cons a as ih => exact congrArg (a :: ·) ih
  induction ls with
  | nil => rfl
  | cons l ls ih =>
    have hline : items l.tokens = l.items := by
      have hend : (if l.broken then [Token.newline] else []).filterMap Token.item? = ([] : List α) := by
        cases l.broken <;> rfl
      rw [Line.tokens, items, List.filterMap_append, hend, List.append_nil]
      exact hmap l.items
    rw [tokens_cons, List.map_cons, List.flatten_cons, ← ih, ← hline]
    exact List.filterMap_append

/-- Lines whose items come to nothing are blank. -/
theorem eq_replicate_of_flatten {ls : List (List α)} (h : ls.flatten = []) : ls = List.replicate ls.length [] :=
  List.eq_replicate_iff.2 ⟨rfl, fun l hl => List.flatten_eq_nil_iff.1 h l hl⟩

/-- The lines with a newline exactly after those that are shorter than the width. -/
def natural (width : Nat) (ls : List (Line α)) : List (Line α) := ls.map fun l => ⟨l.items, decide (l.items.length < width)⟩

/-- Lines laid out again in their width, of which a store keeps the last ones, come back as they were exactly when the open line
does not fill the width and the newlines among the items stand as if every shorter line, and no other, had been ended by one. -/
theorem layout_tokens_keeps_iff (hw : 0 < width) {capacity : Nat} {closed : List (Line α)} (current : List α)
    (hle : ∀ l ∈ closed, l.items.length ≤ width) (hcapacity : closed.length + 1 ≤ capacity) :
    ((layout width (tokens (Page.mk closed current).lines)).lines.rtake capacity).map Line.items =
        (Page.mk closed current).lines.map Line.items ↔
      current.length < width ∧ tokens closed = tokens (natural width closed) := by
  have hnatural : (natural width closed).map Line.items = closed.map Line.items := by
    rw [natural, List.map_map]
    rfl
  have hcanonical : current.length < width → (Page.mk (natural width closed) current).Canonical width := by
    refine fun hcurrent => ⟨fun l hl => ?_, hcurrent⟩
    obtain ⟨m, hm, rfl⟩ := List.mem_map.1 hl
    exact ⟨hle m hm, rfl⟩
  constructor
  · intro h
    have hpage := layout_canonical hw (tokens (Page.mk closed current).lines)
    have htokens := tokens_layout width (tokens (Page.mk closed current).lines)
    generalize layout width (tokens (Page.mk closed current).lines) = p at h hpage htokens
    -- what the store gave up is blank lines
    have hsplit : p.lines.map Line.items = (p.lines.take (p.lines.length - capacity)).map Line.items ++
        (Page.mk closed current).lines.map Line.items := by
      rw [← h, ← List.map_append, List.rtake, List.take_append_drop]
    have hitems := congrArg items htokens
    rw [items_tokens, items_tokens, hsplit, List.flatten_append] at hitems
    have hblank := eq_replicate_of_flatten (List.append_left_eq_self.1 hitems)
    rw [hblank] at hsplit
    have hbroken : ∀ l ∈ p.lines.dropLast, l.items = [] → l.broken = true := by
      intro l hl hnil
      rw [Page.lines, List.dropLast_concat] at hl
      rw [(hpage.closed l hl).2, hnil]
      exact decide_eq_true hw
    have hnone := no_blank_above _ _ _ (by simp [Page.lines]) (by simp [Page.lines]) hbroken htokens hsplit
    rw [hnone, List.replicate_zero, List.nil_append] at hsplit
    have hcurrent : p.current = current := by
      have hlast := congrArg List.getLast? hsplit
      simpa [Page.lines] using hlast
    have hlt : current.length < width := hcurrent ▸ hpage.current
    refine ⟨hlt, ?_⟩
    have heq := hpage.ext (hcanonical hlt) (by
      rw [hsplit, Page.lines, Page.lines, List.map_append, List.map_append, hnatural])
    rw [heq, Page.tokens_lines, Page.tokens_lines] at htokens
    exact (List.append_cancel_right htokens).symm
  · rintro ⟨hcurrent, htokens⟩
    have hpage := (hcanonical hcurrent).layout_tokens
    rw [Page.tokens_lines, ← htokens, ← Page.tokens_lines (Page.mk closed current)] at hpage
    have hlength : (Page.mk (natural width closed) current).lines.length ≤ capacity := by
      simpa [Page.lines, natural] using hcapacity
    rw [hpage, List.rtake, Nat.sub_eq_zero_of_le hlength, List.drop_zero, Page.lines, Page.lines, List.map_append, hnatural,
      List.map_append]

end Library
