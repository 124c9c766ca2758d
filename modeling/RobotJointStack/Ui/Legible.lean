import RobotJointStack.Ui.Glass

/-!
# Ui.Legible

What can be read off the status screen. It only ever shows printable characters, none of them the
one that the font has lost, and each in a colour that stands out; so its glass and its text determine
each other, but for the colour of blanks.

* `plain_decimal`, `plain_render`: every text of the screen is plain.
* `plain_run`: so all cells are, in every run.
* `status_readable`: two glasses look alike exactly if they show the same text.
-/

namespace Rjs

open TextScreen

/-- A character that can be told from any other. -/
structure Plain (ch : UInt8) : Prop where
  printable : Printable ch
  visible : ch ≠ underscore

instance : DecidablePred Plain := fun ch =>
  decidable_of_iff (Printable ch ∧ ch ≠ underscore) ⟨fun h => ⟨h.1, h.2⟩, fun h => ⟨h.1, h.2⟩⟩

def PlainText (text : List UInt8) : Prop := ∀ ch ∈ text, Plain ch

instance : DecidablePred PlainText := fun text => List.decidableBAll Plain text

/-- An operation that writes plain characters and picks colours that stand out. -/
def ScreenOp.IsPlain : ScreenOp → Prop
  | .setColors fg bg => fg ≠ bg
  | .print _ _ text | .printLine _ _ text => ∀ t ∈ text, PlainText t
  | _ => True

/-- A screen with nothing but plain text on it. -/
structure PlainScreen (s : TextScreen) : Prop where
  cells : ∀ p, Plain (s.cell p).ch ∧ (s.cell p).fg ≠ (s.cell p).bg
  colors : s.curFg ≠ s.curBg

/-! ## Texts -/

section Text

variable {a b : List UInt8}

theorem PlainText.append (ha : PlainText a) (hb : PlainText b) : PlainText (a ++ b) :=
  List.forall_mem_append.mpr ⟨ha, hb⟩

theorem plain_ascii {text : String} (h : ∀ c ∈ text.toList, 32 ≤ c.toNat ∧ c.toNat ≤ 126 ∧ c ≠ '_') :
    PlainText (StatusScreen.ascii text) := by
  intro ch hch
  obtain ⟨c, hc, rfl⟩ := List.mem_map.mp hch
  obtain ⟨hlow, hhigh, hne⟩ := h c hc
  have hval : (UInt8.ofNat c.toNat).toNat = c.toNat :=
    UInt8.toNat_ofNat_of_lt' (show c.toNat < 256 by omega)
  refine ⟨⟨?_, ?_⟩, fun he => hne ?_⟩
  · rw [UInt8.le_iff_toNat_le, hval]; exact hlow
  · rw [UInt8.le_iff_toNat_le, hval]; exact hhigh
  · rw [← UInt8.toNat_inj, hval] at he
    exact Char.toNat_inj.mp he

theorem plain_decimal (x : Int) : PlainText (StatusScreen.decimal x) := by
  have hdigit {n : Nat} {c : Char} (h : c ∈ Nat.toDigits 10 n) :
      32 ≤ c.toNat ∧ c.toNat ≤ 126 ∧ c ≠ '_' := by
    have hd := Char.isDigit_iff_toNat.mp (Nat.isDigit_of_mem_toDigits (by decide) (by decide) h)
    change 48 ≤ c.toNat ∧ c.toNat ≤ 57 at hd
    refine ⟨by omega, by omega, ?_⟩
    rintro rfl
    exact absurd hd.2 (by decide)
  refine plain_ascii fun c hc => ?_
  cases x with
  | ofNat n =>
    change c ∈ (String.ofList (Nat.toDigits 10 n)).toList at hc
    rw [String.toList_ofList] at hc
    exact hdigit hc
  | negSucc n =>
    change c ∈ ("-" ++ String.ofList (Nat.toDigits 10 (n + 1))).toList at hc
    rw [String.toList_append, String.toList_ofList (l := Nat.toDigits 10 (n + 1))] at hc
    rcases List.mem_append.mp hc with hminus | hdigits
    · obtain rfl : c = '-' := by simpa using hminus
      decide
    · exact hdigit hdigits

theorem plain_padTo {width : Nat} (ha : PlainText a) : PlainText (StatusScreen.padTo width a) := by
  refine ha.append fun ch hch => ?_
  rw [List.eq_of_mem_replicate hch]
  decide

end Text

/-! ## The operations of a cycle -/

section Render

open StatusScreen

theorem plain_line (row : UInt8) {text : List UInt8} (h : PlainText text) :
    (line row text).IsPlain := fun t ht => by cases ht; exact h

theorem plain_colors {fg bg : UInt16} (h : fg ≠ bg) : (ScreenOp.setColors fg bg).IsPlain := h

theorem plain_stateName (state : UInt8) : PlainText (stateName state) := by
  unfold stateName
  split_ifs <;> decide

theorem plain_renderHeader (v : AppView) : ∀ op ∈ renderHeader v, op.IsPlain := by
  have hnode : PlainText (ascii "ROBOT JOINT STACK    node ") := by decide +kernel
  have hup : PlainText (ascii "CAN FD 1/2 Mbit   up ") := by decide +kernel
  simp only [renderHeader, List.forall_mem_cons, List.not_mem_nil, false_implies, implies_true,
    and_true]
  exact ⟨plain_colors (by decide), plain_line 0 (hnode.append (plain_decimal _)),
    plain_colors (by decide), plain_line 1 ((hup.append (plain_decimal _)).append (by decide))⟩

theorem plain_renderJoint (v : AppView) : ∀ op ∈ renderJoint v, op.IsPlain := by
  have hposition : PlainText (ascii "POSITION ") := by decide +kernel
  have hmode : PlainText (ascii " deg/s  mode ") := by decide +kernel
  simp only [renderJoint, List.forall_mem_cons, List.not_mem_nil, false_implies, implies_true,
    and_true]
  refine ⟨plain_colors (by decide), plain_line 3 ?_, plain_colors ?_, trivial,
    plain_colors (by decide), plain_line 5 ?_⟩
  · refine (((((hposition.append ?_).append (plain_decimal _)).append (by decide)).append
      (plain_decimal _)).append (by decide))
    split_ifs <;> decide
  · split_ifs <;> decide
  · refine (((PlainText.append (by decide) (plain_decimal _)).append hmode).append ?_)
    split_ifs <;> decide

theorem plain_renderPeer (v : AppView) (i : Fin viewPeers) :
    ∀ op ∈ renderPeer v i, op.IsPlain := by
  unfold renderPeer
  split_ifs
  · exact List.forall_mem_singleton.mpr trivial
  · simp only [List.forall_mem_cons, List.not_mem_nil, false_implies, implies_true, and_true]
    refine ⟨plain_colors ?_, plain_line _ ?_⟩
    · split_ifs <;> decide
    · refine (((((PlainText.append (by decide) (plain_padTo (plain_decimal _))).append
        (by decide)).append (plain_padTo ?_)).append (by decide)).append ?_)
      · split_ifs
        · exact plain_stateName _
        · decide
      · split_ifs <;> decide

theorem plain_renderBus (v : AppView) : ∀ op ∈ renderBus v, op.IsPlain := by
  simp only [renderBus, List.forall_mem_cons, List.not_mem_nil, false_implies, implies_true,
    and_true]
  refine ⟨plain_colors (by decide), plain_line 13 (by decide), plain_colors (by decide),
    plain_line 14 ?_, plain_colors ?_, plain_line 15 ?_, plain_colors (by decide),
    plain_line 16 ?_⟩
  · exact ((PlainText.append (by decide) (plain_decimal _)).append (by decide)).append
      (plain_decimal _)
  · split_ifs <;> decide
  · exact ((((PlainText.append (by decide) (plain_decimal _)).append (by decide)).append
      (plain_decimal _)).append (by decide)).append (plain_decimal _)
  · exact (PlainText.append (by decide) (plain_decimal _)).append (by decide)

theorem plain_renderStatus (v : AppView) : ∀ op ∈ renderStatus v, op.IsPlain := by
  unfold renderStatus
  split_ifs <;>
  · simp only [List.forall_mem_cons, List.not_mem_nil, false_implies, implies_true, and_true]
    exact ⟨plain_colors (by decide), plain_line 18 (by decide +kernel)⟩

theorem plain_render (v : AppView) : ∀ op ∈ render v, op.IsPlain := by
  have hpeers : ∀ op ∈ renderPeers v, op.IsPlain := by
    have hnodes : PlainText (ascii "NODES ON BUS (") := by decide +kernel
    simp only [renderPeers, List.forall_mem_append, List.forall_mem_cons, List.not_mem_nil,
      false_implies, implies_true, and_true]
    refine ⟨⟨plain_colors (by decide), plain_line 7 ((hnodes.append (plain_decimal _)).append (by decide))⟩, ?_⟩
    intro op hop
    obtain ⟨i, -, hi⟩ := List.mem_flatMap.mp hop
    exact plain_renderPeer v i op hi
  simp only [render, List.forall_mem_append]
  exact ⟨⟨⟨⟨plain_renderHeader v, plain_renderJoint v⟩, hpeers⟩, plain_renderBus v⟩,
    plain_renderStatus v⟩

end Render

/-! ## The screen -/

theorem plain_textInk {col : UInt8} {text : List UInt8} (h : PlainText text) {c : Nat} {ch : UInt8}
    (hink : textInk col (buffered text) c = some ch) : Plain ch := by
  unfold textInk at hink
  split at hink
  · have hmem : ch ∈ text.take tsCols :=
      (List.takeWhile_sublist _).subset (List.mem_of_getElem? hink)
    exact h ch (List.mem_of_mem_take hmem)
  · cases hink

theorem plain_printInk {row col : UInt8} {pad : Bool} {text : Option (List UInt8)}
    (h : ∀ t ∈ text, PlainText t) {p : Pos} {ch : UInt8}
    (hink : printInk row col pad text p = some ch) : Plain ch := by
  cases text with
  | none => cases hink
  | some text =>
    simp only [printInk, rowInk] at hink
    split at hink
    · rcases Option.or_eq_some_iff.mp hink with htext | ⟨-, hpad⟩
      · exact plain_textInk (h text rfl) htext
      · split at hpad
        · cases hpad; decide
        · cases hpad
    · cases hink

/-- The ink of a plain operation. -/
theorem plain_ink {op : ScreenOp} (h : op.IsPlain) {p : Pos} {ch : UInt8}
    (hink : op.ink p = some ch) : Plain ch := by
  cases op with
  | print row col text => exact plain_printInk h hink
  | printLine row col text => exact plain_printInk h hink
  | bar row col width permille =>
    simp only [ScreenOp.ink, barInk, rowInk] at hink
    split at hink
    · split at hink
      · cases hink
        split_ifs <;> decide
      · cases hink
    · cases hink
  | clearRow row =>
    simp only [ScreenOp.ink, rowInk] at hink
    split at hink
    · cases hink; decide
    · cases hink
  | _ => cases hink

theorem plain_start (panel : Panel) : PlainScreen (StatusScreen.start panel).screen where
  cells p := by
    have hcell : (StatusScreen.start panel).screen.cell p =
        ⟨blank, StatusScreen.white, StatusScreen.bg⟩ := by
      simp [StatusScreen.start, Display.start, TextScreen.init, TextScreen.cell, markAllDirty]
    rw [hcell]
    decide
  colors := by show StatusScreen.white ≠ StatusScreen.bg; decide

theorem colors_unmark (s : TextScreen) (rows : List (Fin tsRows)) :
    (s.unmark rows).curFg = s.curFg ∧ (s.unmark rows).curBg = s.curBg := by
  induction rows generalizing s with
  | nil => exact ⟨rfl, rfl⟩
  | cons r rows ih => exact ih (s.clearBits r)

theorem plain_act {d : Display} (h : PlainScreen d.screen) (htracked : d.Tracked) {op : ScreenOp}
    (hop : op.IsPlain) : PlainScreen (d.act op).screen := by
  by_cases hflush : op = .flush
  · subst hflush
    refine ⟨fun p => ?_, ?_⟩
    · rw [(Display.act_flush htracked p).2.1]; exact h.cells p
    · obtain ⟨hfg, hbg⟩ := colors_unmark d.screen (List.finRange tsRows)
      simp only [Display.act, flush_eq htracked.inBounds]
      rw [hfg, hbg]
      exact h.colors
  · by_cases hall : op = .markAllDirty
    · subst hall
      exact ⟨h.cells, h.colors⟩
    · have hwritten := d.written_act ⟨hall, hflush⟩
      refine ⟨fun p => ?_, ?_⟩
      · rw [hwritten.cell p]
        cases hink : op.ink p with
        | none => exact h.cells p
        | some ch => exact ⟨plain_ink hop hink, h.colors⟩
      · obtain ⟨hfg, hbg⟩ := Prod.ext_iff.mp hwritten.colors
        dsimp only at hfg hbg
        rw [hfg, hbg]
        cases op with
        | setColors fg bg => exact hop
        | _ => exact h.colors

theorem plain_run {d : Display} (h : PlainScreen d.screen) (htracked : d.Tracked)
    {ops : List ScreenOp} (hops : ∀ op ∈ ops, op.IsPlain) : PlainScreen (d.run ops).screen := by
  induction ops generalizing d with
  | nil => exact h
  | cons op ops ih =>
    obtain ⟨hop, hrest⟩ := List.forall_mem_cons.mp hops
    exact ih (plain_act h htracked hop) (Display.tracked_act htracked op) hrest

/-! ## The glass -/

/-- `ui_task` after the cycles of some views. -/
def uiTask (g : Glass) (views : List AppView) : GlassDisplay :=
  (GlassDisplay.start g).run (views.flatMap StatusScreen.cycle)

theorem plain_uiTask (g : Glass) (views : List AppView) : PlainScreen (uiTask g views).screen := by
  rw [uiTask, (mirrors_cellsShown g _).screen]
  refine plain_run (plain_start blackPanel) (Display.tracked_start _ _ blackPanel) fun op hop => ?_
  obtain ⟨v, -, hv⟩ := List.mem_flatMap.mp hop
  rcases List.mem_append.mp hv with hrender | hflush
  · exact plain_render v op hrender
  · rw [List.mem_singleton.mp hflush]; trivial

/-- Two cells with plain characters look alike if they are the same, but for the colour of a
blank. -/
theorem looksLike_iff {c c' : Cell} (h : c.ch ≠ underscore) (h' : c'.ch ≠ underscore) :
    c.LooksLike c' ↔ c.ch = c'.ch ∧ c.bg = c'.bg ∧ (c.ch = blank ∨ c.fg = c'.fg) := by
  simp only [Cell.LooksLike, IsBlank, or_iff_left h, or_iff_left h']
  constructor
  · rintro ⟨hbg, ⟨hb, hb'⟩ | ⟨hch, hfg⟩⟩
    · exact ⟨hb.trans hb'.symm, hbg, .inl hb⟩
    · exact ⟨hch, hbg, .inr hfg⟩
  · rintro ⟨hch, hbg, hb | hfg⟩
    · exact ⟨hbg, .inl ⟨hb, hch ▸ hb⟩⟩
    · exact ⟨hbg, .inr ⟨hch, hfg⟩⟩

/-- The pixels after a cycle. -/
theorem pixel_uiTask (g : Glass) (before : List AppView) (v : AppView) (p : Pos) (y : Fin 16)
    (x : Fin 8) :
    (uiTask g (before ++ [v])).pixel p y x =
      (renderCell ((uiTask g (before ++ [v])).screen.cell p))[8 * y.val + x.val]? := by
  let ops := before.flatMap StatusScreen.cycle ++ StatusScreen.render v
  have hops : (before ++ [v]).flatMap StatusScreen.cycle = ops ++ [.flush] := by
    simp [ops, StatusScreen.cycle]
  have hend : uiTask g (before ++ [v]) = ((GlassDisplay.start g).run ops).act .flush := by
    rw [uiTask, hops]
    exact List.foldl_concat ..
  have hmirrors := mirrors_cellsShown g ops
  have hflush := Display.act_flush (tracked_cellsShown ops) p
  have hcell : (((GlassDisplay.start g).run ops).act .flush).screen.cell p =
      ((GlassDisplay.start g).run ops).screen.cell p := by
    rw [(mirrors_act hmirrors (tracked_cellsShown ops) .flush).screen, hflush.2.1, hmirrors.screen]
  rw [hend, pixel_flush, hcell]
  exact (Vector.getElem?_eq_getElem _).symm

/-- **The status screen can be read.** Whatever the views have been, every character on the screen is
one that the font has and stands out from its background; and two glasses, each after at least one
cycle, look alike in a cell exactly if the screens have the same character there, on the same
background and, unless it is a blank, in the same colour. -/
theorem status_readable (g g' : Glass) (before before' : List AppView) (v v' : AppView) (p : Pos) :
    let d := uiTask g (before ++ [v])
    let d' := uiTask g' (before' ++ [v'])
    let c := d.screen.cell p
    let c' := d'.screen.cell p
    (Plain c.ch ∧ c.fg ≠ c.bg) ∧
    ((∀ y x, d.pixel p y x = d'.pixel p y x) ↔
      c.ch = c'.ch ∧ c.bg = c'.bg ∧ (c.ch = blank ∨ c.fg = c'.fg)) := by
  intro d d' c c'
  have h := (plain_uiTask g (before ++ [v])).cells p
  have h' := (plain_uiTask g' (before' ++ [v'])).cells p
  refine ⟨h, ?_⟩
  rw [← looksLike_iff h.1.visible h'.1.visible,
    ← renderCell_eq_iff ⟨h.1.printable, h.2⟩ ⟨h'.1.printable, h'.2⟩]
  simp only [d, d', pixel_uiTask]
  constructor
  · intro hsame
    refine Vector.ext fun i hi => ?_
    have hpixel := hsame ⟨i / 8, by omega⟩ ⟨i % 8, by omega⟩
    simp only [Nat.div_add_mod] at hpixel
    rw [Vector.getElem?_eq_getElem hi, Vector.getElem?_eq_getElem hi] at hpixel
    exact Option.some.inj hpixel
  · intro he y x
    exact congrArg (fun cell : Vector UInt16 128 => cell[8 * y.val + x.val]?) he

end Rjs
