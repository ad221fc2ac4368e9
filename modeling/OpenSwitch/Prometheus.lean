import OpenSwitch.Basic
import OpenSwitch.Exposition
/-!
# Prometheus — the registry of metrics and the page it renders (`prometheus.cc`)

Every counter, gauge and histogram renders its own HELP and TYPE line before its samples, and `Registry::Render` puts one
after another.  The text is the page of the lines (`Registry.render_eq`), so the TYPE lines of the page are as many as
the metrics, each under its metric's name (`Registry.typeNames_lines`).
-/
namespace Osw
namespace Prometheus

open Exposition

/-- What the page takes from C++'s `double`: comparing, the conversions to and from nanoseconds, and what `operator<<`
prints, which is known for the bounds of a latency histogram. -/
class DoubleOps (δ : Type) where
  le             : δ → δ → Bool
  toNanos        : δ → Nat
  ofNanos        : Nat → δ
  text           : δ → Bytes
  latencyBuckets : List δ
  text_plain     : ∀ d, ∀ b ∈ text d, b ≠ 92 ∧ b ≠ 34 ∧ b ≠ 10
  text_latencyBuckets : latencyBuckets.map text =
    [str "0.005", str "0.01", str "0.025", str "0.05", str "0.1", str "0.25", str "0.5", str "1", str "2.5", str "5",
      str "10"]

/-- `std::to_string` of an unsigned number. -/
def decimal (n : Nat) : Bytes := (Nat.toDigits 10 n).map fun c => c.toNat.toUInt8

/-- `std::to_string` of a signed number. -/
def decimalInt (i : Int) : Bytes := if i < 0 then str "-" ++ decimal i.natAbs else decimal i.natAbs

/-- The loop of `RenderLabels`, from index `i` on. -/
def renderLabelLoop : Nat → List Label → Bytes
  | _, [] => []
  | i, l :: ls =>
    (if 0 < i then str "," else []) ++ l.key ++ str "=\"" ++ escape l.value ++ str "\"" ++ renderLabelLoop (i + 1) ls

def renderLabels (labels : List Label) : Bytes :=
  if labels.isEmpty then [] else str "\x7b" ++ renderLabelLoop 0 labels ++ str "\x7d"

/-- `Counter::Render` and `Gauge::Render`, which differ in the kind. -/
def renderScalar (name help : Bytes) (labels : List Label) (kind value : Bytes) : Bytes :=
  str "# HELP " ++ name ++ str " " ++ help ++ str "\n" ++
  str "# TYPE " ++ name ++ str " " ++ kind ++ str "\n" ++
  name ++ renderLabels labels ++ str " " ++ value ++ str "\n"

def scalarLines (name help : Bytes) (labels : List Label) (kind value : Bytes) : List Line :=
  [.help name help, .type name kind, .sample name labels value]

structure Counter where
  name   : Bytes
  help   : Bytes
  labels : List Label
  value  : Nat
  deriving DecidableEq, Repr

structure Gauge where
  name   : Bytes
  help   : Bytes
  labels : List Label
  value  : Int
  deriving DecidableEq, Repr

/-- `buckets` is `bounds_` with the counts below each, and `inf` the last slot of `bucket_counts_`. -/
structure Histogram (δ : Type) where
  name    : Bytes
  help    : Bytes
  labels  : List Label
  buckets : List (δ × Nat)
  inf     : Nat
  sumNs   : Nat
  count   : Nat

def Counter.inc (c : Counter) : Counter := { c with value := (c.value + 1) % 2 ^ 64 }

def Counter.render (c : Counter) : Bytes := renderScalar c.name c.help c.labels (str "counter") (decimal c.value)

def Counter.lines (c : Counter) : List Line := scalarLines c.name c.help c.labels (str "counter") (decimal c.value)

def Gauge.set (v : Int) (g : Gauge) : Gauge := { g with value := v }

def Gauge.render (g : Gauge) : Bytes := renderScalar g.name g.help g.labels (str "gauge") (decimalInt g.value)

def Gauge.lines (g : Gauge) : List Line := scalarLines g.name g.help g.labels (str "gauge") (decimalInt g.value)

namespace Histogram

variable {δ : Type} [DoubleOps δ]

def make (name help : Bytes) (labels : List Label) (bounds : List δ) : Histogram δ :=
  ⟨name, help, labels, bounds.map fun b => (b, 0), 0, 0, 0⟩

def observe (v : δ) (h : Histogram δ) : Histogram δ :=
  { h with
    buckets := h.buckets.map fun p => (p.1, if DoubleOps.le v p.1 then (p.2 + 1) % 2 ^ 64 else p.2)
    inf     := (h.inf + 1) % 2 ^ 64
    count   := (h.count + 1) % 2 ^ 64
    sumNs   := (h.sumNs + DoubleOps.toNanos v) % 2 ^ 64 }

/-- A line of `Histogram::Render` for a bucket: the label `le`, then the others without their opening brace. -/
def renderBucket (h : Histogram δ) (le : Bytes) (n : Nat) : Bytes :=
  h.name ++ str "_bucket\x7ble=\"" ++ le ++ str "\"" ++
  (if h.labels.isEmpty then str "\x7d" else str "," ++ (renderLabels h.labels).drop 1) ++
  str " " ++ decimal n ++ str "\n"

/-- The HELP line has the name of the buckets, the TYPE line that of the histogram. -/
def renderHeader (h : Histogram δ) : Bytes :=
  str "# HELP " ++ h.name ++ str "_" ++ str "bucket " ++ h.help ++ str "\n" ++
  str "# TYPE " ++ h.name ++ str " histogram\n"

/-- The sum line and the count line. -/
def renderTotal (h : Histogram δ) (suffix value : Bytes) : Bytes :=
  h.name ++ suffix ++ renderLabels h.labels ++ str " " ++ value ++ str "\n"

def render (h : Histogram δ) : Bytes :=
  h.renderHeader ++
  h.buckets.flatMap (fun p => h.renderBucket (DoubleOps.text p.1) p.2) ++
  h.renderBucket (str "+Inf") h.inf ++
  h.renderTotal (str "_sum") (DoubleOps.text (DoubleOps.ofNanos h.sumNs : δ)) ++
  h.renderTotal (str "_count") (decimal h.count)

def bucketLine (h : Histogram δ) (le : Bytes) (n : Nat) : Line :=
  .sample (h.name ++ str "_bucket") (⟨str "le", le⟩ :: h.labels) (decimal n)

def bucketLines (h : Histogram δ) : List Line :=
  h.buckets.map (fun p => h.bucketLine (DoubleOps.text p.1) p.2) ++ [h.bucketLine (str "+Inf") h.inf]

def lines (h : Histogram δ) : List Line :=
  .help (h.name ++ str "_bucket") h.help :: .type h.name (str "histogram") ::
    (h.bucketLines ++
      ([.sample (h.name ++ str "_sum") h.labels (DoubleOps.text (DoubleOps.ofNanos h.sumNs : δ))] ++
        [.sample (h.name ++ str "_count") h.labels (decimal h.count)]))

end Histogram

structure Registry (δ : Type) where
  counters   : List Counter
  gauges     : List Gauge
  histograms : List (Histogram δ)

namespace Registry

variable {δ : Type} [DoubleOps δ]

def empty : Registry δ := ⟨[], [], []⟩

/-- The pointer returned is the place of the counter, which it keeps. -/
def addCounter (r : Registry δ) (name help : Bytes) (labels : List Label) : Registry δ × Nat :=
  ({ r with counters := r.counters ++ [⟨name, help, labels, 0⟩] }, r.counters.length)

def addGauge (r : Registry δ) (name help : Bytes) (labels : List Label) : Registry δ × Nat :=
  ({ r with gauges := r.gauges ++ [⟨name, help, labels, 0⟩] }, r.gauges.length)

def addHistogram (r : Registry δ) (name help : Bytes) (labels : List Label) (bounds : List δ) : Registry δ × Nat :=
  ({ r with histograms := r.histograms ++ [.make name help labels bounds] }, r.histograms.length)

def addLatencyHistogram (r : Registry δ) (name help : Bytes) (labels : List Label) : Registry δ × Nat :=
  r.addHistogram name help labels DoubleOps.latencyBuckets

def render (r : Registry δ) : Bytes :=
  r.counters.flatMap Counter.render ++ r.gauges.flatMap Gauge.render ++ r.histograms.flatMap Histogram.render

/-- The lines of each metric. -/
def blocks (r : Registry δ) : List (List Line) :=
  r.counters.map Counter.lines ++ r.gauges.map Gauge.lines ++ r.histograms.map Histogram.lines

def lines (r : Registry δ) : List Line := r.blocks.flatten

end Registry

/-! ## The text is the page of the lines -/

theorem literal_bytes : str "," = [44] ∧ str "=\"" = [61, 34] ∧ str "\"" = [34] ∧ str "\x7b" = [123] ∧ str "\x7d" = [125] ∧
    str "# HELP " = helpMark ∧ str "# TYPE " = typeMark ∧ str " " = [32] ∧ str "\n" = [10] := by
  decide +kernel

theorem str_comma : str "," = [44] := literal_bytes.1

theorem str_equals : str "=\"" = [61, 34] := literal_bytes.2.1

theorem str_quote : str "\"" = [34] := literal_bytes.2.2.1

theorem str_open : str "\x7b" = [123] := literal_bytes.2.2.2.1

theorem str_close : str "\x7d" = [125] := literal_bytes.2.2.2.2.1

theorem str_help : str "# HELP " = helpMark := literal_bytes.2.2.2.2.2.1

theorem str_type : str "# TYPE " = typeMark := literal_bytes.2.2.2.2.2.2.1

theorem str_space : str " " = [32] := literal_bytes.2.2.2.2.2.2.2.1

theorem str_newline : str "\n" = [10] := literal_bytes.2.2.2.2.2.2.2.2

theorem renderLabelLoop_succ : ∀ (i : Nat) (ls : List Label), renderLabelLoop (i + 1) ls = writeMore ls
  | _, [] => rfl
  | i, l :: ls => by
    rw [renderLabelLoop, renderLabelLoop_succ (i + 1) ls, if_pos (Nat.succ_pos i), str_comma, str_equals, str_quote]
    simp only [writeMore, List.flatMap_cons, writeLabel, List.append_assoc, List.cons_append, List.nil_append]

theorem renderLabels_eq (ls : List Label) : renderLabels ls = writeLabels ls := by
  cases ls with
  | nil => rfl
  | cons l ls =>
    simp only [renderLabels, List.isEmpty_cons, Bool.false_eq_true, if_false, renderLabelLoop, renderLabelLoop_succ,
      Nat.lt_irrefl, str_open, str_close, str_equals, str_quote, writeLabels, writeLabel, List.append_assoc, List.cons_append,
      List.nil_append]

/-- **Rendered labels can be read back**: the text gives the keys and values again, so that two lists have one text only
when they are one list.  The values may be any bytes. -/
theorem renderLabels_read_back (ls ls' : List Label) (h : ∀ l ∈ ls, isLabelName l.key = true)
    (h' : ∀ l ∈ ls', isLabelName l.key = true) :
    (renderLabels ls = renderLabels ls' → ls = ls') ∧ readLabelSet (renderLabels ls) = some ls := by
  have hread := readLabelSet_writeLabels h
  have hread' := readLabelSet_writeLabels h'
  rw [renderLabels_eq, renderLabels_eq]
  refine ⟨?_, hread⟩
  intro heq
  rw [heq, hread'] at hread
  exact (Option.some.inj hread).symm

/-- A value that is nothing but a quote, a comma, a brace, a backslash and a newline. -/
theorem renderLabels_read_back_quote : readLabelSet (renderLabels [⟨[97], [34, 44, 125, 92, 10]⟩, ⟨[98], []⟩]) =
    some [⟨[97], [34, 44, 125, 92, 10]⟩, ⟨[98], []⟩] :=
  (renderLabels_read_back [⟨[97], [34, 44, 125, 92, 10]⟩, ⟨[98], []⟩] [] (by decide) (by decide)).2

theorem renderScalar_eq (name help : Bytes) (labels : List Label) (kind value : Bytes) :
    renderScalar name help labels kind value = writePage (scalarLines name help labels kind value) := by
  simp only [renderScalar, scalarLines, writePage_cons, writePage_nil, Line.write, str_help, str_type, str_space,
    str_newline, renderLabels_eq, List.append_assoc, List.cons_append, List.nil_append]

theorem Counter.render_eq (c : Counter) : c.render = writePage c.lines :=
  renderScalar_eq c.name c.help c.labels (str "counter") (decimal c.value)

theorem Gauge.render_eq (g : Gauge) : g.render = writePage g.lines :=
  renderScalar_eq g.name g.help g.labels (str "gauge") (decimalInt g.value)

namespace Histogram

variable {δ : Type} [DoubleOps δ]

omit [DoubleOps δ] in
theorem renderBucket_eq (h : Histogram δ) {le : Bytes} (n : Nat) (hle : escape le = le) :
    h.renderBucket le n = writePage [h.bucketLine le n] := by
  have hopen : str "_bucket\x7ble=\"" = str "_bucket" ++ 123 :: (str "le" ++ [61, 34]) := by decide +kernel
  cases hl : h.labels with
  | nil =>
    simp only [renderBucket, bucketLine, hl, List.isEmpty_nil, if_true, writePage_cons, writePage_nil, Line.write,
      writeLabels, writeLabel, writeMore, List.flatMap_nil, hle, hopen, str_quote, str_close, str_space, str_newline,
      List.append_assoc, List.cons_append, List.nil_append, List.append_nil]
  | cons l ls =>
    simp only [renderBucket, bucketLine, hl, List.isEmpty_cons, Bool.false_eq_true, if_false, renderLabels_eq,
      writePage_cons, writePage_nil, Line.write, writeLabels, writeLabel, writeMore, List.flatMap_cons, hle, hopen,
      str_quote, str_comma, str_space, str_newline, List.drop_succ_cons, List.drop_zero, List.append_assoc,
      List.cons_append, List.nil_append]

theorem escape_text (d : δ) : escape (DoubleOps.text d) = DoubleOps.text d := escape_of_plain (DoubleOps.text_plain d)

theorem renderBuckets_eq (h : Histogram δ) : ∀ ps : List (δ × Nat),
    ps.flatMap (fun p => h.renderBucket (DoubleOps.text p.1) p.2)
      = writePage (ps.map fun p => h.bucketLine (DoubleOps.text p.1) p.2)
  | [] => rfl
  | p :: ps => by
    rw [List.flatMap_cons, renderBuckets_eq h ps, renderBucket_eq h p.2 (escape_text p.1), ← writePage_append]
    rfl

omit [DoubleOps δ] in
theorem renderHeader_eq (h : Histogram δ) :
    h.renderHeader = writePage [.help (h.name ++ str "_bucket") h.help, .type h.name (str "histogram")] := by
  have hname : str "_bucket" = str "_" ++ str "bucket" := by decide +kernel
  have hbucket : str "bucket " = str "bucket" ++ [32] := by decide +kernel
  have hkind : str " histogram\n" = 32 :: (str "histogram" ++ [10]) := by decide +kernel
  simp only [renderHeader, hname, hbucket, hkind, str_help, str_type, str_newline, writePage_cons, writePage_nil, Line.write,
    List.append_assoc, List.cons_append, List.nil_append]

omit [DoubleOps δ] in
theorem renderTotal_eq (h : Histogram δ) (suffix value : Bytes) :
    h.renderTotal suffix value = writePage [.sample (h.name ++ suffix) h.labels value] := by
  simp only [renderTotal, renderLabels_eq, str_space, str_newline, writePage_cons, writePage_nil, Line.write,
    List.append_assoc, List.cons_append, List.nil_append]

theorem render_eq (h : Histogram δ) : h.render = writePage h.lines := by
  have hinf : escape (str "+Inf") = str "+Inf" := by decide +kernel
  rw [render, renderHeader_eq, renderBuckets_eq, renderBucket_eq h h.inf hinf, renderTotal_eq, renderTotal_eq,
    ← writePage_append, ← writePage_append, ← writePage_append, ← writePage_append, lines, bucketLines]
  simp only [List.append_assoc, List.cons_append, List.nil_append]

end Histogram

theorem flatMap_render {α : Type} {render : α → Bytes} {lines : α → List Line} (h : ∀ x, render x = writePage (lines x)) :
    ∀ xs : List α, xs.flatMap render = writePage (xs.map lines).flatten
  | [] => rfl
  | x :: xs => by
    rw [List.flatMap_cons, List.map_cons, List.flatten_cons, writePage_append, flatMap_render h xs, h x]

theorem filterMap_lines {α β : Type} {lines : α → List Line} {f : Line → Option β} {g : α → β}
    (h : ∀ x, (lines x).filterMap f = [g x]) : ∀ xs : List α, (xs.map lines).flatten.filterMap f = xs.map g
  | [] => rfl
  | x :: xs => by
    rw [List.map_cons, List.flatten_cons, List.filterMap_append, h x, filterMap_lines h xs, List.map_cons]
    rfl

namespace Registry

variable {δ : Type} [DoubleOps δ]

/-- **The text is the page of the lines.** -/
theorem render_eq (r : Registry δ) : r.render = writePage r.lines := by
  rw [render, lines, blocks, List.flatten_append, List.flatten_append, writePage_append, writePage_append,
    flatMap_render Counter.render_eq, flatMap_render Gauge.render_eq, flatMap_render Histogram.render_eq]

theorem typeNames_lines (r : Registry δ) : r.lines.filterMap Line.typeName =
    r.counters.map Counter.name ++ r.gauges.map Gauge.name ++ r.histograms.map Histogram.name := by
  have hhist : ∀ h : Histogram δ, h.lines.filterMap Line.typeName = [h.name] := by
    intro h
    have hbuckets : h.bucketLines.filterMap Line.typeName = [] := by
      refine List.filterMap_eq_nil_iff.2 fun l hl => ?_
      rcases List.mem_append.1 hl with hl | hl
      · obtain ⟨p, -, rfl⟩ := List.mem_map.1 hl
        rfl
      · obtain rfl := List.mem_singleton.1 hl
        rfl
    have htotals : h.lines.filterMap Line.typeName = h.name :: (h.bucketLines.filterMap Line.typeName ++ []) := by
      show h.name :: (h.bucketLines ++ _).filterMap Line.typeName = _
      rw [List.filterMap_append]
      rfl
    rw [htotals, hbuckets]
    rfl
  rw [lines, blocks, List.flatten_append, List.flatten_append, List.filterMap_append, List.filterMap_append,
    filterMap_lines (g := Counter.name) (fun _ => rfl), filterMap_lines (g := Gauge.name) (fun _ => rfl),
    filterMap_lines hhist]

end Registry

/-! ## When a metric's lines can be read back -/

theorem digit_of_mem_decimal {n : Nat} {b : UInt8} (h : b ∈ decimal n) : 48 ≤ b.toNat ∧ b.toNat ≤ 57 := by
  obtain ⟨c, hc, rfl⟩ := List.mem_map.1 h
  have hdigit := Nat.isDigit_of_mem_toDigits (by decide) (by decide) hc
  simp only [Char.isDigit, Bool.and_eq_true, decide_eq_true_eq] at hdigit
  have hlo : 48 ≤ c.toNat := hdigit.1
  have hhi : c.toNat ≤ 57 := hdigit.2
  have hval : (c.toNat.toUInt8).toNat = c.toNat % 256 := by simp
  omega

theorem newline_notMem_decimal (n : Nat) : (10 : UInt8) ∉ decimal n := by
  intro h
  exact absurd (digit_of_mem_decimal h).1 (by decide)

theorem newline_notMem_decimalInt (i : Int) : (10 : UInt8) ∉ decimalInt i := by
  rw [decimalInt]
  split
  · have hminus : (10 : UInt8) ∉ str "-" := by decide +kernel
    rw [List.mem_append, not_or]
    exact ⟨hminus, newline_notMem_decimal _⟩
  · exact newline_notMem_decimal _

/-- The name, help and keys of a metric are plain; the values of its labels may be any bytes. -/
structure MetricPlain (name help : Bytes) (labels : List Label) : Prop where
  name : NamePlain name
  help : (10 : UInt8) ∉ help
  keys : ∀ l ∈ labels, KeyPlain l.key

theorem MetricPlain.scalarLines {name help kind value : Bytes} {labels : List Label} (h : MetricPlain name help labels)
    (hk : (10 : UInt8) ∉ kind) (hv : (10 : UInt8) ∉ value) :
    ∀ l ∈ scalarLines name help labels kind value, l.Plain := by
  intro l hl
  simp only [Prometheus.scalarLines, List.mem_cons, List.not_mem_nil, or_false] at hl
  rcases hl with rfl | rfl | rfl
  · exact ⟨h.name, h.help⟩
  · exact ⟨h.name, hk⟩
  · exact ⟨h.name, h.keys, hv⟩

theorem NamePlain.append {a b : Bytes} (ha : NamePlain a) (hb : NamePlain b) : NamePlain (a ++ b) := by
  intro c hc
  rcases List.mem_append.1 hc with hc | hc
  · exact ha c hc
  · exact hb c hc

theorem scalarLines_valid (name help : Bytes) (labels : List Label) (kind value : Bytes) :
    Valid (scalarLines name help labels kind value) := by
  refine Valid.header name help name kind (fun l hl => ?_) (Valid.singleton (.sample name labels value))
  obtain rfl := List.mem_singleton.1 hl
  exact Option.some_ne_none _

namespace Histogram

variable {δ : Type} [DoubleOps δ]

theorem lines_plain {h : Histogram δ} (hp : MetricPlain h.name h.help h.labels) : ∀ l ∈ h.lines, l.Plain := by
  have hbucket : NamePlain (str "_bucket") := by decide +kernel
  have hsum : NamePlain (str "_sum") := by decide +kernel
  have hcount : NamePlain (str "_count") := by decide +kernel
  have hkind : (10 : UInt8) ∉ str "histogram" := by decide +kernel
  have hkey : KeyPlain (str "le") := by decide +kernel
  have hline : ∀ le n, (h.bucketLine le n).Plain := by
    refine fun le n => ⟨NamePlain.append hp.name hbucket, fun l hl => ?_, newline_notMem_decimal n⟩
    rcases List.mem_cons.1 hl with rfl | hl
    · exact hkey
    · exact hp.keys l hl
  intro l hl
  simp only [lines, bucketLines, List.mem_cons, List.mem_append, List.mem_map, List.not_mem_nil, or_false] at hl
  rcases hl with rfl | rfl | ((⟨p, -, rfl⟩ | rfl) | rfl | rfl)
  · exact ⟨NamePlain.append hp.name hbucket, hp.help⟩
  · exact ⟨hp.name, hkind⟩
  · exact hline _ _
  · exact hline _ _
  · refine ⟨NamePlain.append hp.name hsum, hp.keys, fun hm => ?_⟩
    exact (DoubleOps.text_plain _ _ hm).2.2 rfl
  · exact ⟨NamePlain.append hp.name hcount, hp.keys, newline_notMem_decimal _⟩

/-- The bounds print differently, and no label is called `le`. -/
structure BucketsApart (h : Histogram δ) : Prop where
  bounds : (h.buckets.map (fun p => DoubleOps.text p.1) ++ [str "+Inf"]).Nodup
  keys   : ∀ l ∈ h.labels, l.key ≠ str "le"

theorem series_bucketLines (h : Histogram δ) : h.bucketLines.filterMap Line.series =
    (h.buckets.map (fun p => DoubleOps.text p.1) ++ [str "+Inf"]).map fun le =>
      (h.name ++ str "_bucket", ⟨str "le", le⟩ :: h.labels) := by
  rw [bucketLines, List.filterMap_append, List.map_append, List.filterMap_map, List.map_map]
  congr 1
  exact congrFun List.filterMap_eq_map h.buckets

theorem distinct_bucketLines {h : Histogram δ} (hb : h.BucketsApart) :
    (h.bucketLines.filterMap Line.series).Pairwise fun s s' => ¬ SameSeries s s' := by
  rw [series_bucketLines, List.pairwise_map]
  refine hb.bounds.imp fun {le le'} hne hsame => ?_
  -- the label `le` of one bucket is among the labels of the other
  have hmem := (hsame.2 ⟨str "le", le⟩).1 List.mem_cons_self
  rcases List.mem_cons.1 hmem with heq | hmem
  · exact hne (Label.mk.inj heq).2
  · exact hb.keys _ hmem rfl

theorem lines_valid {h : Histogram δ} (hb : h.BucketsApart) : Valid h.lines := by
  have hsum : str "_bucket" ≠ str "_sum" := by decide +kernel
  have hcount : str "_bucket" ≠ str "_count" := by decide +kernel
  have hboth : str "_sum" ≠ str "_count" := by decide +kernel
  have hname : ∀ l ∈ h.bucketLines, l.sampleName = some (h.name ++ str "_bucket") ∧ l.name = h.name ++ str "_bucket" := by
    intro l hl
    rcases List.mem_append.1 hl with hl | hl
    · obtain ⟨p, -, rfl⟩ := List.mem_map.1 hl
      exact ⟨rfl, rfl⟩
    · obtain rfl := List.mem_singleton.1 hl
      exact ⟨rfl, rfl⟩
  have hbuckets : Valid h.bucketLines := Valid.of_name _ (fun l hl => (hname l hl).1) (distinct_bucketLines hb)
  refine Valid.header _ _ _ _ (fun l hl => ?_) (hbuckets.append ((Valid.singleton _).append (Valid.singleton _) ?_) ?_)
  · rcases List.mem_append.1 hl with hl | hl
    · rw [(hname l hl).1]
      exact Option.some_ne_none _
    · rcases List.mem_append.1 hl with hl | hl <;>
      · obtain rfl := List.mem_singleton.1 hl
        exact Option.some_ne_none _
  · intro x hx y hy heq
    obtain rfl := List.mem_singleton.1 hx
    obtain rfl := List.mem_singleton.1 hy
    exact hboth (List.append_cancel_left heq)
  · intro x hx y hy heq
    rw [(hname x hx).2] at heq
    rcases List.mem_append.1 hy with hy | hy
    · obtain rfl := List.mem_singleton.1 hy
      exact hsum (List.append_cancel_left heq)
    · obtain rfl := List.mem_singleton.1 hy
      exact hcount (List.append_cancel_left heq)

end Histogram

namespace Registry

variable {δ : Type} [DoubleOps δ]

structure Plain (r : Registry δ) : Prop where
  counters   : ∀ c ∈ r.counters, MetricPlain c.name c.help c.labels
  gauges     : ∀ g ∈ r.gauges, MetricPlain g.name g.help g.labels
  histograms : ∀ h ∈ r.histograms, MetricPlain h.name h.help h.labels

theorem Plain.lines {r : Registry δ} (h : r.Plain) : ∀ l ∈ r.lines, l.Plain := by
  have hcounter : (10 : UInt8) ∉ str "counter" := by decide +kernel
  have hgauge : (10 : UInt8) ∉ str "gauge" := by decide +kernel
  intro l hl
  obtain ⟨b, hb, hl⟩ := List.mem_flatten.1 hl
  rcases List.mem_append.1 hb with hb | hb
  · rcases List.mem_append.1 hb with hb | hb
    · obtain ⟨c, hc, rfl⟩ := List.mem_map.1 hb
      exact (h.counters c hc).scalarLines hcounter (newline_notMem_decimal _) l hl
    · obtain ⟨g, hg, rfl⟩ := List.mem_map.1 hb
      exact (h.gauges g hg).scalarLines hgauge (newline_notMem_decimalInt _) l hl
  · obtain ⟨x, hx, rfl⟩ := List.mem_map.1 hb
    exact Histogram.lines_plain (h.histograms x hx) l hl

theorem readPage_render {r : Registry δ} (h : r.Plain) : readPage r.render = some r.lines := by
  rw [render_eq, readPage_writePage h.lines]

theorem validPage_render {r : Registry δ} (h : r.Plain) : ValidPage r.render ↔ Valid r.lines := by
  rw [render_eq, validPage_writePage h.lines]

end Registry
end Prometheus
end Osw
