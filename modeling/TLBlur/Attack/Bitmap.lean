import TLBlur.Attack.FaultHandler
import TLBlur.Profiler.PAM

namespace TLBlur
namespace Attack

/-!
# Rendering the reconstruction

`reconstructed_bitmap` renders the reconstruction as an image whose width is
the longest row of channel 0 and whose height is the number of rows of
channel 0 less the open one.  It reads every pixel of the red, green and blue
channels through `reconstructed_pixel`, which takes the colour modulo the
number of channels and the row by index, and before that it sorts the counts
of channel 0 to print their median.

From any reconstruction that `JpegReconstruct::new` reaches, every row lookup
is in bounds: every channel has `current_row + 1` rows, and the image is
`current_row` rows high.  The median lookup is not: it indexes the sorted
counts of channel 0 at half their number, and before the first block is
committed there is none, so the bitmap of `JpegReconstruct::new` itself, or
of a replay that never completes a block, panics.

The normalisation of the counts, in floating point, and the image encoding
are left out: the model returns what the normalisation reads, the size, the
median, the extremes `min_data` and `max_data`, and the raw counts of every
pixel.
-/

/-- `JPEG_GRAY`: the gray channel is channel 0. -/
def jpegGray : Nat := 0

/-- `JPEG_RED`: the red channel is also channel 0. -/
def jpegRed : Nat := 0

/-- `JPEG_GREEN`. -/
def jpegGreen : Nat := 1

/-- `JPEG_BLUE`. -/
def jpegBlue : Nat := 2

/-- The rendered image before normalisation: its size, the median count of
channel 0, the least and greatest committed counts that scale the colours,
and for every column `x` and row `y` the counts of the red, green and blue
channels at `pixels[x][y]`. -/
structure Bitmap where
  width : Nat
  height : Nat
  median : Nat
  minData : Nat
  maxData : Nat
  pixels : List (List (Nat × Nat × Nat))
  deriving DecidableEq, Repr

namespace JpegReconstruct

/-- `reconstructed_pixel`: the count at column `x` of row `y` in the channel
`color % num_colors`, `0` past the end of the row.  The remainder by zero
colours and the channel and row lookups panic. -/
def reconstructedPixel (r : JpegReconstruct) (color x y : Nat) : Option Nat := do
  if r.numColors = 0 then none
  let channel ← r.reconstructedBuffer[color % r.numColors]?
  let row ← channel[y]?
  pure (row.getD x 0)

/-- `reconstructed_size`: the length of the longest row of channel 0, `0`
when it has none, and its number of rows less one.  Indexing an empty buffer
and the `usize` subtraction panic. -/
def reconstructedSize (r : JpegReconstruct) : Option (Nat × Nat) := do
  let channel ← r.reconstructedBuffer[0]?
  let height ← Profiler.checkedSub channel.length 1
  pure (((channel.map List.length).max?).getD 0, height)

/-- `reconstruction`: the counts of a channel, row after row.  Indexing past
the buffer panics. -/
def reconstruction (r : JpegReconstruct) (color : Nat) : Option (List Nat) :=
  r.reconstructedBuffer[color]?.map List.flatten

/-- The two loops of `reconstructed_bitmap`, over the columns and then the
rows: the red, green and blue counts of every pixel. -/
def bitmapPixels (r : JpegReconstruct) (width height : Nat) :
    Option (List (List (Nat × Nat × Nat))) :=
  (List.range width).mapM fun x => (List.range height).mapM fun y => do
    let red ← r.reconstructedPixel jpegRed x y
    let green ← r.reconstructedPixel jpegGreen x y
    let blue ← r.reconstructedPixel jpegBlue x y
    pure (red, green, blue)

/-- `reconstructed_bitmap`, up to the normalisation and the image encoding:
the size, the median lookup into the sorted counts of channel 0, the extremes
that scale the colours, and the three channels of every pixel. -/
def reconstructedBitmap (r : JpegReconstruct) : Option Bitmap := do
  let (width, height) ← r.reconstructedSize
  let buffer ← r.reconstruction jpegGray
  let buffer := buffer.mergeSort
  let median ← buffer[buffer.length / 2]?
  let pixels ← r.bitmapPixels width height
  pure ⟨width, height, median, r.minData, r.maxData, pixels⟩

end JpegReconstruct

/-- Before its first block a reconstruction cannot be rendered: for every
number of colours, `reconstructed_bitmap` on `JpegReconstruct::new` finds the
size of an empty image, but channel 0 holds no count, and the median lookup
indexes an empty list. -/
theorem reconstructedBitmap_panics_before_first_block (numColors : Nat) (colors : 1 ≤ numColors) :
    (JpegReconstruct.new numColors).reconstructedSize = some (0, 0) ∧
      (JpegReconstruct.new numColors).reconstruction jpegGray = some [] ∧
      (JpegReconstruct.new numColors).reconstructedBitmap = none := by
  obtain ⟨more, rfl⟩ : ∃ more, numColors = more + 1 := ⟨numColors - 1, by omega⟩
  simp [JpegReconstruct.reconstructedBitmap, JpegReconstruct.reconstructedSize,
    JpegReconstruct.reconstruction, JpegReconstruct.new, jpegGray, List.replicate_succ,
    Profiler.checkedSub]

/-- A colour reconstruction before its first block. -/
theorem reconstructedBitmap_panics_before_first_block_color :
    1 ≤ 3 ∧ (JpegReconstruct.new 3).reconstructedSize = some (0, 0) ∧
      (JpegReconstruct.new 3).reconstruction jpegGray = some [] ∧
      (JpegReconstruct.new 3).reconstructedBitmap = none :=
  ⟨by decide, reconstructedBitmap_panics_before_first_block 3 (by decide)⟩

/-! ## Every reachable reconstruction -/

/-- The reconstructions that `JpegReconstruct::new numColors` reaches by
calls of `reconstruct`, `next_row` and `reconstruct_block` that return. -/
inductive Reachable (numColors : Nat) : JpegReconstruct → Prop
  | new : Reachable numColors (JpegReconstruct.new numColors)
  | reconstruct {r r' : JpegReconstruct} (prevState newState : JpegState) :
      Reachable numColors r → r.reconstruct prevState newState = some r' → Reachable numColors r'
  | nextRow {r r' : JpegReconstruct} :
      Reachable numColors r → r.nextRow = some r' → Reachable numColors r'
  | reconstructBlock {r r' : JpegReconstruct} (numData : Nat) :
      Reachable numColors r → r.reconstructBlock numData = some r' → Reachable numColors r'

/-- Every reachable reconstruction is laid out as some commit log says. -/
theorem Reachable.layout {numColors : Nat} (colors : 1 ≤ numColors) {r : JpegReconstruct}
    (reachable : Reachable numColors r) : ∃ rows log, Layout numColors rows log r := by
  induction reachable with
  | new => exact ⟨0, [], layout_new numColors⟩
  | reconstruct prevState newState _ stepped ih =>
    obtain ⟨rows, log, layout⟩ := ih
    obtain ⟨r', rows', log', notified, layout'⟩ := layout.reconstruct_any colors prevState newState
    exact ⟨rows', log', Option.some.inj (notified.symm.trans stepped) ▸ layout'⟩
  | nextRow _ stepped ih =>
    obtain ⟨rows, log, layout⟩ := ih
    obtain ⟨r', opened, layout'⟩ := layout.nextRow
    exact ⟨rows + 1, log, Option.some.inj (opened.symm.trans stepped) ▸ layout'⟩
  | reconstructBlock numData _ stepped ih =>
    obtain ⟨rows, log, layout⟩ := ih
    obtain ⟨r', committed, layout'⟩ := layout.reconstructBlock colors numData
    exact ⟨rows, _, Option.some.inj (committed.symm.trans stepped) ▸ layout'⟩

section Rendering

variable {numColors rows : Nat} {log : List (Nat × Nat)} {r : JpegReconstruct}

/-- Channel 0 is in the buffer, with its `rows + 1` rows. -/
theorem Layout.channelZero (layout : Layout numColors rows log r) (colors : 1 ≤ numColors) :
    ∃ channel, r.reconstructedBuffer[0]? = some channel ∧ channel.length = rows + 1 := by
  have inBounds : 0 < r.reconstructedBuffer.length := by rw [layout.length_eq]; omega
  have channelRows := layout.rows_eq 0 colors
  rw [List.getD_eq_getElem?_getD, List.getElem?_eq_getElem inBounds, Option.getD_some]
    at channelRows
  exact ⟨_, List.getElem?_eq_getElem inBounds, channelRows⟩

theorem Layout.reconstructedSize_eq (layout : Layout numColors rows log r) (colors : 1 ≤ numColors) :
    ∃ width, r.reconstructedSize = some (width, rows) := by
  obtain ⟨channel, found, length⟩ := layout.channelZero colors
  exact ⟨((channel.map List.length).max?).getD 0,
    by simp [JpegReconstruct.reconstructedSize, found, length, Profiler.checkedSub]⟩

/-- Every row of every channel, the colour taken modulo the colours, is in
the buffer. -/
theorem Layout.exists_reconstructedPixel (layout : Layout numColors rows log r)
    (colors : 1 ≤ numColors) (color x : Nat) {y : Nat} (below : y < rows + 1) :
    ∃ count, r.reconstructedPixel color x y = some count := by
  have channelBound : color % numColors < r.reconstructedBuffer.length := by
    rw [layout.length_eq]; exact Nat.mod_lt _ colors
  have channelRows := layout.rows_eq _ (Nat.mod_lt color colors)
  rw [List.getD_eq_getElem?_getD, List.getElem?_eq_getElem channelBound, Option.getD_some]
    at channelRows
  have rowBound : y < r.reconstructedBuffer[color % numColors].length := by omega
  exact Option.isSome_iff_exists.mp (by simp [JpegReconstruct.reconstructedPixel,
    layout.numColors_eq, Nat.pos_iff_ne_zero.mp colors, List.getElem?_eq_getElem channelBound,
    List.getElem?_eq_getElem rowBound])

/-- The pixel loops read in bounds up to the open row. -/
theorem Layout.exists_bitmapPixels (layout : Layout numColors rows log r) (colors : 1 ≤ numColors)
    (width : Nat) {height : Nat} (within : height ≤ rows + 1) :
    ∃ pixels, r.bitmapPixels width height = some pixels :=
  Profiler.exists_mapM_eq_some fun x _ => Profiler.exists_mapM_eq_some fun y member => by
    have below : y < rows + 1 := by simp at member; omega
    obtain ⟨red, redEq⟩ := layout.exists_reconstructedPixel colors jpegRed x below
    obtain ⟨green, greenEq⟩ := layout.exists_reconstructedPixel colors jpegGreen x below
    obtain ⟨blue, blueEq⟩ := layout.exists_reconstructedPixel colors jpegBlue x below
    exact ⟨(red, green, blue), by simp [redEq, greenEq, blueEq]⟩

/-- A laid-out reconstruction fails to render exactly when channel 0 holds no
count: the size and the pixels are read in bounds, and only the median
lookup can fail. -/
theorem Layout.reconstructedBitmap_eq_none_iff (layout : Layout numColors rows log r)
    (colors : 1 ≤ numColors) :
    r.reconstructedBitmap = none ↔ r.reconstruction jpegGray = some [] := by
  obtain ⟨channel, found, -⟩ := layout.channelZero colors
  obtain ⟨width, sized⟩ := layout.reconstructedSize_eq colors
  obtain ⟨pixels, read⟩ := layout.exists_bitmapPixels colors width (Nat.le_succ rows)
  have counts : r.reconstruction jpegGray = some channel.flatten := by
    simp [JpegReconstruct.reconstruction, jpegGray, found]
  simp only [JpegReconstruct.reconstructedBitmap, sized, counts, read, Option.bind_eq_bind,
    Option.some_bind, Option.some.injEq]
  cases channel.flatten with
  | nil => simp
  | cons first rest =>
    have median : (rest.length + 1) / 2 < ((first :: rest).mergeSort fun a b => a ≤ b).length := by
      rw [List.length_mergeSort, List.length_cons]; omega
    simp [List.getElem?_eq_getElem median]

/-- Channel 0 holds a count exactly when some block was committed: the first
commit goes to channel 0, in a row the channel has. -/
theorem Layout.reconstruction_eq_nil_iff (layout : Layout numColors rows log r)
    (colors : 1 ≤ numColors) : r.reconstruction jpegGray = some [] ↔ log = [] := by
  obtain ⟨channel, found, length⟩ := layout.channelZero colors
  have rowsEq : ∀ row (below : row < channel.length), channel[row] = channelRow numColors log 0 row :=
    fun row below => by
      have := layout.row_eq 0 colors row (by omega)
      rwa [List.getD_eq_getElem?_getD, List.getD_eq_getElem?_getD, found, Option.getD_some,
        List.getElem?_eq_getElem below, Option.getD_some] at this
  simp only [JpegReconstruct.reconstruction, jpegGray, found, Option.map_some', Option.some.injEq,
    List.flatten_eq_nil_iff]
  constructor
  · intro empty
    cases log with
    | nil => rfl
    | cons first rest =>
      have below : first.2 < channel.length := by
        have := layout.rows_le first (List.mem_cons_self _ _); omega
      have committed : first.1 ∈ channelRow numColors (first :: rest) 0 first.2 := by
        simp [channelRow, List.enum_cons]
      rw [← rowsEq first.2 below, empty _ (List.getElem_mem below)] at committed
      cases committed
  · rintro rfl l member
    obtain ⟨row, below, rfl⟩ := List.getElem_of_mem member
    simp [rowsEq row below, channelRow]

end Rendering

/-- From `JpegReconstruct::new` over any number of colours, every
reconstruction that `reconstruct`, `next_row` and `reconstruct_block` reach
renders `current_row` rows high, reads every pixel of every channel below
that height in bounds, and fails to render exactly when channel 0 holds no
count: only the median lookup can panic. -/
theorem reconstructedBitmap_of_reachable (numColors : Nat) (colors : 1 ≤ numColors)
    {r : JpegReconstruct} (reachable : Reachable numColors r) :
    (∃ width, r.reconstructedSize = some (width, r.currentRow)) ∧
      (∀ color x y, y < r.currentRow → ∃ count, r.reconstructedPixel color x y = some count) ∧
      (r.reconstructedBitmap = none ↔ r.reconstruction jpegGray = some []) := by
  obtain ⟨rows, log, layout⟩ := reachable.layout colors
  rw [layout.currentRow_eq]
  exact ⟨layout.reconstructedSize_eq colors,
    fun color x y below => layout.exists_reconstructedPixel colors color x (by omega),
    layout.reconstructedBitmap_eq_none_iff colors⟩

/-- One block of one colour, then a new row: the image is one row high, and
renders. -/
theorem reconstructedBitmap_of_reachable_one_row :
    1 ≤ 1 ∧ Reachable 1 ⟨0, 1, [[[5], []]], 5, 5, 1⟩ ∧
      ((∃ width, JpegReconstruct.reconstructedSize ⟨0, 1, [[[5], []]], 5, 5, 1⟩ = some (width, 1)) ∧
        (∀ color x y, y < 1 →
          ∃ count, JpegReconstruct.reconstructedPixel ⟨0, 1, [[[5], []]], 5, 5, 1⟩ color x y = some count) ∧
        (JpegReconstruct.reconstructedBitmap ⟨0, 1, [[[5], []]], 5, 5, 1⟩ = none ↔
          JpegReconstruct.reconstruction ⟨0, 1, [[[5], []]], 5, 5, 1⟩ jpegGray = some [])) :=
  have reachable : Reachable 1 ⟨0, 1, [[[5], []]], 5, 5, 1⟩ :=
    @Reachable.nextRow 1 ⟨0, 1, [[[5]]], 5, 5, 0⟩ _
      (@Reachable.reconstructBlock 1 _ _ 5 .new (by decide)) (by decide)
  ⟨by decide, reachable, reconstructedBitmap_of_reachable 1 (by decide) reachable⟩

/-- Replaying any fault sequence, as `attack_vcd` does, ends in a
reconstruction that renders exactly when the sequence commits a block: the
bitmap panics on exactly the sequences whose commit log is empty. -/
theorem replay_bitmap_panics_iff_no_block (numColors : Nat) (colors : 1 ≤ numColors)
    (hasAexnotify : Bool) (pages : List Nat) :
    ∃ state r, replay numColors hasAexnotify pages = some (state, r) ∧
      (r.reconstructedBitmap = none ↔ commitLog hasAexnotify (steps hasAexnotify pages) = []) := by
  obtain ⟨state, r, ran, consistent⟩ := (consistent_new numColors hasAexnotify).run colors pages
  have layout : Layout numColors (rowSteps (steps hasAexnotify pages))
      (commitLog hasAexnotify (steps hasAexnotify pages)) r := by
    simpa [steps] using consistent.layout
  exact ⟨state, r, ran,
    (layout.reconstructedBitmap_eq_none_iff colors).trans (layout.reconstruction_eq_nil_iff colors)⟩

/-- A trace that enters the data range but never completes its block. -/
theorem replay_bitmap_panics_iff_no_block_unfinished :
    1 ≤ 1 ∧ ∃ state r, replay 1 false [54, 58, 63, 150, 151] = some (state, r) ∧
      (r.reconstructedBitmap = none ↔
        commitLog false (steps false [54, 58, 63, 150, 151]) = []) :=
  ⟨by decide, replay_bitmap_panics_iff_no_block 1 (by decide) false _⟩

end Attack
end TLBlur
