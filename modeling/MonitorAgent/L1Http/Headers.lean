import Mathlib.Data.List.Induction
import MonitorAgent.L1Http.HttpGet

/-!
# Written replies

How a server writes a reply: status lines, header fields that may be folded over
several lines, and a body in chunks, of the announced length, or up to the close.
Names are written in any case, and the last of several fields of a name counts.

* `getheader_withFields`: what a field says is read back.
* `chunked_answers`, `sized_answers`, `close_answers`: and so is the body.
-/
namespace MonitorAgent.L1.Http

open Text

/-- Blanks between a name and its value. -/
def isBlank (b : UInt8) : Bool := b = 32 ∨ b = 9

/-- A line that goes on with the field before. -/
structure Fold where
  gap : List UInt8
  text : List UInt8
  gap_ne : gap ≠ []
  gap_space : ∀ b ∈ gap, isSpace b = true
  text_first : ∀ b ∈ text.head?, isSpace b = false
  text_plain : (0 : UInt8) ∉ text

structure Field where
  name : List UInt8
  gap : List UInt8
  value : List UInt8
  folds : List Fold
  name_ne : name ≠ []
  name_first : ∀ b ∈ name.head?, isSpace b = false
  name_plain : ∀ b ∈ name, b ≠ 0 ∧ b ≠ 58
  gap_blank : ∀ b ∈ gap, isBlank b = true
  value_plain : (0 : UInt8) ∉ value

namespace Field

variable (f : Field)

def first : List UInt8 := f.name ++ 58 :: (f.gap ++ f.value)

/-- The lines of the field. -/
def texts : List (List UInt8) := f.first :: f.folds.map fun x => x.gap ++ x.text

def unfolded : List UInt8 := (f.folds.map fun x => 32 :: x.text).flatten

/-- What the field says. -/
def content : List UInt8 := (f.value ++ f.unfolded).dropWhile isBlank

end Field

def Field.allTexts (fs : List Field) : List (List UInt8) := (fs.map texts).flatten

/-- A status line of HTTP/1.x; `tail` is the reason, with the space before it. -/
structure StatusLine where
  lead : List UInt8
  version : List UInt8
  gap : List UInt8
  code : List UInt8
  tail : List UInt8
  status : Nat
  lead_space : ∀ b ∈ lead, b = 32
  version_http : version.take 7 = ascii "HTTP/1."
  version_plain : ∀ b ∈ version, b ≠ 0 ∧ b ≠ 32
  gap_ne : gap ≠ []
  gap_space : ∀ b ∈ gap, b = 32
  numeral : Numeral 10 status code
  range : 100 ≤ status ∧ status ≤ 999
  tail_first : ∀ b ∈ tail.head?, b = 32
  tail_plain : (0 : UInt8) ∉ tail

def StatusLine.text (l : StatusLine) : List UInt8 :=
  l.lead ++ (l.version ++ (l.gap ++ (l.code ++ l.tail)))

theorem isSpace_ne_zero {b : UInt8} (h : isSpace b = true) : b ≠ 0 := by
  rintro rfl
  exact absurd h (by decide)

theorem isBlank_ne_zero {b : UInt8} (h : isBlank b = true) : b ≠ 0 := by
  rintro rfl
  exact absurd h (by decide)

theorem StatusLine.plain (l : StatusLine) : (0 : UInt8) ∉ l.text := by
  have hcode : (0 : UInt8) ∉ l.code := fun h => absurd (l.numeral.digits 0 h) (by decide)
  have hlead : (0 : UInt8) ∉ l.lead := fun h => absurd (l.lead_space 0 h) (by decide)
  have hgap : (0 : UInt8) ∉ l.gap := fun h => absurd (l.gap_space 0 h) (by decide)
  have hversion : (0 : UInt8) ∉ l.version := fun h => (l.version_plain 0 h).1 rfl
  simp [StatusLine.text, hcode, hlead, hgap, hversion, l.tail_plain]

namespace Response

variable {r : Response}

/-! ## Fields -/

/-- The fields, each in its turn. -/
def withFields (r : Response) (fs : List Field) : Response :=
  { r with headers := fs.foldl (fun m f =>
    m.assign (f.name.map toLower) f.content) r.headers, headerAccum := [] }

theorem first_plain (f : Field) : (0 : UInt8) ∉ f.first := by
  simp only [Field.first, List.mem_append, List.mem_cons, not_or]
  exact ⟨fun h => (f.name_plain 0 h).1 rfl, by decide, fun h =>
    isBlank_ne_zero (f.gap_blank 0 h) rfl, f.value_plain⟩

theorem processHeaderLine_first (r : Response) (f : Field) :
    r.processHeaderLine f.first = { r.flushHeader with headerAccum := f.first } := by
  have hne : f.first ≠ [] := List.append_ne_nil_of_right_ne_nil _ (List.cons_ne_nil _ _)
  have hhead : f.first.head?.any isSpace = false := by
    cases hn : f.name with
    | nil => exact absurd hn f.name_ne
    | cons b bs =>
      have := f.name_first b (by rw [hn]; rfl)
      simpa [Field.first, hn] using this
  rw [processHeaderLine, if_neg hne, cstr_eq (first_plain f)]
  exact if_neg (by rw [hhead]; exact Bool.false_ne_true)

theorem processHeaderLine_fold (r : Response) (x : Fold) :
    r.processHeaderLine (x.gap ++ x.text) =
    { r with headerAccum := r.headerAccum ++ 32 :: x.text } := by
  have hplain : (0 : UInt8) ∉ x.gap ++ x.text := by
    simp only [List.mem_append, not_or]
    exact ⟨fun h => isSpace_ne_zero (x.gap_space 0 h) rfl, x.text_plain⟩
  have hdrop : x.text.dropWhile isSpace = x.text := by
    cases ht : x.text with
    | nil => rfl
    | cons b bs => rw [List.dropWhile_cons_of_neg (by simp [x.text_first b (by rw [ht]; rfl)])]
  cases hg : x.gap with
  | nil => exact absurd hg x.gap_ne
  | cons b bs =>
    have hb : isSpace b = true := x.gap_space b (by simp [hg])
    have hbs : ∀ c ∈ bs, isSpace c = true := fun c hc => x.gap_space c (by simp [hg, hc])
    rw [hg] at hplain
    rw [processHeaderLine, if_neg (by simp), cstr_eq hplain, if_pos (by simpa using hb),
      List.cons_append, List.drop_one,
      List.tail_cons, List.dropWhile_append_of_pos hbs, hdrop]

theorem foldl_folds (r : Response) (xs : List Fold) :
    (xs.map fun x => x.gap ++ x.text).foldl processHeaderLine r =
      { r with headerAccum := r.headerAccum ++ (xs.map fun x => 32 :: x.text).flatten } := by
  induction xs generalizing r with
  | nil => simp
  | cons x xs ih =>
    rw [List.map_cons, List.foldl_cons, processHeaderLine_fold, ih]
    simp

/-- The field is accumulated, and the one before is flushed. -/
theorem foldl_texts (r : Response) (f : Field) :
    f.texts.foldl processHeaderLine r =
    { r.flushHeader with headerAccum := f.first ++ f.unfolded } := by
  rw [Field.texts, List.foldl_cons, processHeaderLine_first, foldl_folds]
  rfl

theorem unfolded_plain (f : Field) : (0 : UInt8) ∉ f.unfolded := by
  intro h
  obtain ⟨t, ht, h0⟩ := List.mem_flatten.mp h
  obtain ⟨x, -, rfl⟩ := List.mem_map.mp ht
  rcases List.mem_cons.mp h0 with h0 | h0
  · exact absurd h0 (by decide)
  · exact x.text_plain h0

theorem flushHeader_field (r : Response) (f : Field) :
    { r with headerAccum := f.first ++ f.unfolded }.flushHeader = r.withFields [f] := by
  have hne : f.first ++ f.unfolded ≠ [] :=
    List.append_ne_nil_of_left_ne_nil
      (List.append_ne_nil_of_right_ne_nil _ (List.cons_ne_nil _ _)) _
  have hsplit :
      cstr (f.first ++ f.unfolded) = f.name ++ 58 :: (f.gap ++ (f.value ++ f.unfolded)) := by
    rw [cstr_eq fun h => (List.mem_append.mp h).elim (first_plain f) (unfolded_plain f)]
    simp [Field.first]
  have hname : ∀ b ∈ f.name, decide (b ≠ 58) = true :=
    fun b hb => by simpa using (f.name_plain b hb).2
  have htake :
      (f.name ++ 58 :: (f.gap ++ (f.value ++ f.unfolded))).takeWhile (· ≠ 58) = f.name := by
    rw [List.takeWhile_append_of_pos hname, List.takeWhile_cons_of_neg (by simp), List.append_nil]
  have hdrop : (f.name ++ 58 :: (f.gap ++ (f.value ++ f.unfolded))).dropWhile (· ≠ 58) =
      58 :: (f.gap ++ (f.value ++ f.unfolded)) := by
    rw [List.dropWhile_append_of_pos hname, List.dropWhile_cons_of_neg (by simp)]
  have hcontent : (f.gap ++ (f.value ++ f.unfolded)).dropWhile
    (fun b => decide (b = 32 ∨ b = 9)) = f.content :=
    List.dropWhile_append_of_pos f.gap_blank
  rw [flushHeader, if_neg hne]
  simp only [hsplit, htake, hdrop, List.drop_one, List.tail_cons, hcontent]
  rfl

theorem flushHeader_accum (r : Response) : r.flushHeader.headerAccum = [] := by
  unfold flushHeader
  split
  · assumption
  · rfl

theorem withFields_nil (h : r.headerAccum = []) : r.withFields [] = r := by
  rw [withFields, List.foldl_nil, ← h]

/-- Field after field. -/
theorem foldl_fields (r : Response) (fs : List Field) :
    ((Field.allTexts fs).foldl processHeaderLine r).flushHeader = r.flushHeader.withFields fs := by
  induction fs generalizing r with
  | nil => exact (withFields_nil (flushHeader_accum r)).symm
  | cons f fs ih =>
    rw [Field.allTexts, List.map_cons, List.flatten_cons, List.foldl_append, foldl_texts,
      ← Field.allTexts, ih,
      flushHeader_field]
    rfl

/-- **What a field says is read back**: the last field of a name counts, in whatever case. -/
theorem getheader_withFields (r : Response) (fs : List Field) (name : List UInt8) :
    (r.withFields fs).getheader name =
      ((fs.reverse.find? fun f => sameText f.name name).map Field.content).or
      (r.getheader name) := by
  induction fs using List.reverseRecOn with
  | nil => rfl
  | append_singleton fs f ih =>
    have hstep : (r.withFields (fs ++ [f])).getheader name =
        if name.map toLower = f.name.map toLower then
        some f.content else (r.withFields fs).getheader name := by
      rw [getheader, withFields, List.foldl_append, List.foldl_cons,
        List.foldl_nil, StdMap.find?_assign]
      rfl
    rw [hstep, List.reverse_append, List.reverse_singleton, List.singleton_append]
    by_cases h : name.map toLower = f.name.map toLower
    · rw [if_pos h, List.find?_cons_of_pos (by simp [sameText, h])]
      rfl
    · rw [if_neg h, List.find?_cons_of_neg (by simpa [sameText] using Ne.symm h), ih]

/-! ## Status lines -/

/-- The version so far is none, or one of HTTP/1.x. -/
def Versioned (r : Response) : Prop :=
  r.versionString = [] ∨ r.versionString.take 7 = ascii "HTTP/1."

theorem Versioned.append (h : r.Versioned) (l : StatusLine) :
    (r.versionString ++ l.version).take 7 = ascii "HTTP/1." := by
  rcases h with h | h
  · rw [h, List.nil_append, l.version_http]
  · have hlen : 7 ≤ r.versionString.length := by
      have := congrArg List.length h
      rw [List.length_take] at this
      have h7 : (ascii "HTTP/1.").length = 7 := rfl
      omega
    rw [List.take_append_of_le_length hlen, h]

/-- A status line is read back. -/
theorem processStatusLine_text (h : r.Versioned) (l : StatusLine) :
    r.processStatusLine l.text = .ok { r with
      state := .headers
      versionString := r.versionString ++ l.version
      version := 11
      status := l.status
      reason := r.reason ++ l.tail.dropWhile (· = 32)
      headerAccum := [] } := by
  have hne : l.version ≠ [] := by
    intro h0
    have := l.version_http
    rw [h0] at this
    cases this
  have hcode : ∀ b ∈ l.code, b ≠ 32 := by
    rintro b hb rfl
    exact absurd (l.numeral.digits _ hb) (by rw [digitOf_lt (by decide)]; simp)
  -- the spaces in front, the version, the spaces behind it, the code
  have h1 := span_append (· = 32) (l.version ++ (l.gap ++ (l.code ++ l.tail)))
    (fun b hb => by simpa using l.lead_space b hb)
    (head_append hne fun b hb => by simpa using (l.version_plain b hb).2)
  have h2 := span_append (· ≠ 32) (l.gap ++ (l.code ++ l.tail))
    (fun b hb => by simpa using (l.version_plain b hb).2)
    (head_append l.gap_ne fun b hb => by simpa using l.gap_space b hb)
  have h3 := span_append (· = 32) (l.code ++ l.tail)
    (fun b hb => by simpa using l.gap_space b hb)
    (head_append l.numeral.ne_nil fun b hb => by simpa using hcode b hb)
  have h4 := span_append (· ≠ 32) l.tail
    (fun b hb => by simpa using hcode b hb) (fun b hb => by simpa using l.tail_first b hb)
  have hstatus : atoi l.code = l.status := atoi_numeral l.numeral (by have := l.range; omega)
  have hversion := h.append l
  have hold : r.versionString ++ l.version ≠ ascii "HTTP:/1.0" := by
    intro he
    rw [he] at hversion
    exact absurd hversion (by decide)
  have hrange : ¬ ((l.status : Int) < 100 ∨ 999 < (l.status : Int)) := by
    have := l.range
    omega
  rw [processStatusLine, cstr_eq l.plain, StatusLine.text]
  simp only [h1.2, h2.1, h2.2, h3.2, h4.1, h4.2, hstatus, hrange, if_false, hversion, hold,
    ne_eq, not_true_eq_false,
    and_false]

end Response

/-! ## Heads -/

/-- A head, as it was written. -/
structure WrittenHead where
  head : Head
  line : StatusLine
  fields : List Field
  status_text : head.status.text = line.text
  field_texts : head.fields.lines.map Line.text = Field.allTexts fields

/-- What the fields say under a name. -/
def lookup (fs : List Field) (name : List UInt8) : Option (List UInt8) :=
  (fs.reverse.find? fun f => sameText f.name name).map Field.content

theorem lookup_append (fs gs : List Field) (name : List UInt8) :
    lookup (fs ++ gs) name = (lookup gs name).or (lookup fs name) := by
  rw [lookup, List.reverse_append, List.find?_append, Option.map_or]
  rfl

namespace Response

variable {r : Response}

/-- Behind the lines of a head. -/
def afterLines (r : Response) (h : WrittenHead) : Response :=
  { r with
    state := .headers
    versionString := r.versionString ++ h.line.version
    version := 11
    status := h.line.status
    reason := r.reason ++ h.line.tail.dropWhile (· = 32)
    headerAccum := [] }.withFields h.fields

theorem readHead_written (hv : r.Versioned) (h : WrittenHead) :
    r.readHead h.head = .ok
      (if h.line.status = 100 then { r.afterLines h with state := .statusLine } else
        (r.afterLines h).beginBody) := by
  rw [readHead, h.status_text, processStatusLine_text hv, h.field_texts]
  simp only [Except.map, processHeaderLine, if_pos, foldl_fields]
  rw [flushHeader, if_pos rfl]
  show Except.ok (if (h.line.status : Int) = 100 then { r.afterLines h with state := .statusLine }
    else (r.afterLines h).beginBody) = _
  have hcast : (h.line.status : Int) = 100 ↔ h.line.status = 100 := by omega
  simp only [hcast]

/-- What the fields of the heads say is what the response has. -/
structure Told (r : Response) (fs : List Field) : Prop where
  headers : ∀ name, r.getheader name = lookup fs name
  bytesRead : r.bytesRead = 0
  method : r.method = GET

theorem afterLines_told {fs : List Field} (hr : r.Told fs) (h : WrittenHead) :
    (r.afterLines h).Told (fs ++ h.fields) := by
  refine ⟨fun name => ?_, hr.bytesRead, hr.method⟩
  rw [lookup_append, ← hr.headers]
  exact getheader_withFields _ h.fields name

theorem afterLines_versioned (hv : r.Versioned) (h : WrittenHead) : (r.afterLines h).Versioned :=
  .inr (hv.append h.line)

/-- Heads of interim responses, then the last. -/
theorem written_heads {fs : List Field} (hv : r.Versioned) (hr : r.Told fs)
    (interims : List WrittenHead)
    (hinterim : ∀ h ∈ interims, h.line.status = 100) (h : WrittenHead)
    (hlast : h.line.status ≠ 100) :
    ∃ t : Response, t.Told (fs ++ (interims.map WrittenHead.fields).flatten ++ h.fields) ∧
      t.status = h.line.status ∧
      Heads r ((interims.map fun h => h.head.wire).flatten ++ h.head.wire) t.beginBody := by
  induction interims generalizing r fs with
  | nil =>
    refine ⟨r.afterLines h, by simpa using afterLines_told hr h, rfl, .last ?_ ?_⟩
    · rw [readHead_written hv, if_neg hlast]
    · show (h.line.status : Int) ≠ 100
      omega
  | cons i interims ih =>
    have hi := hinterim i List.mem_cons_self
    obtain ⟨t, htold, hstatus, hheads⟩ := ih (r := { r.afterLines i with state := .statusLine })
      (afterLines_versioned hv i) ⟨(afterLines_told hr i).headers, hr.bytesRead, hr.method⟩
      (List.forall_mem_of_forall_mem_cons hinterim)
    refine ⟨t, by simpa using htold, hstatus, ?_⟩
    rw [List.map_cons, List.flatten_cons, List.append_assoc]
    refine .interim ?_ ?_ hheads
    · rw [readHead_written hv, if_pos hi]
    · show (i.line.status : Int) = 100
      omega

end Response

/-! ## Replies -/

/-- The body is announced to be in chunks. -/
def announcesChunks (fs : List Field) : Bool :=
  (lookup fs (ascii "transfer-encoding")).any fun t => sameText t (ascii "chunked")

/-- A body under these heads, and whether the close ends it. -/
inductive WrittenBody (fs : List Field) (status : Nat) : List UInt8 → List UInt8 → Bool → Prop
  | chunked (b : ChunkedBody) : announcesChunks fs = true →
      WrittenBody fs status b.wire b.data false
  | sized (data : List UInt8) {text : List UInt8} : announcesChunks fs = false → 200 ≤ status →
      status ≠ 204 → status ≠ 304 →
    lookup fs (ascii "content-length") = some text → Numeral 10 data.length text →
    data.length < 2147483648 → data ≠ [] →
    WrittenBody fs status data data false
  | toClose (data : List UInt8) : announcesChunks fs = false → 200 ≤ status →
      status ≠ 204 → status ≠ 304 →
    lookup fs (ascii "content-length") = none → WrittenBody fs status data data true

structure Written where
  interims : List WrittenHead
  head : WrittenHead
  wire : List UInt8
  body : List UInt8
  closes : Bool
  interim : ∀ h ∈ interims, h.line.status = 100
  last : head.line.status ≠ 100
  framed : WrittenBody ((interims.map WrittenHead.fields).flatten ++ head.fields)
    head.line.status wire body closes

def Written.text (w : Written) : List UInt8 :=
  (w.interims.map fun h => h.head.wire).flatten ++ w.head.head.wire ++ w.wire

namespace Response

variable {r : Response} {fs : List Field} {status : Nat} {wire body : List UInt8} {closes : Bool}

theorem beginBody_chunked (hr : r.Told fs) : r.beginBody.chunked = announcesChunks fs := by
  simp only [beginBody, hr.headers, announcesChunks]

theorem bodiless_false (hr : r.Told fs) (hs : r.status = status) (h200 : 200 ≤ status)
    (h204 : status ≠ 204)
    (h304 : status ≠ 304) : r.bodiless = false := by
  have hn : ¬ (status : Int) = NO_CONTENT := by
    show ¬ (status : Int) = 204
    omega
  have hm : ¬ (status : Int) = NOT_MODIFIED := by
    show ¬ (status : Int) = 304
    omega
  have h1xx : ¬ (status : Int) < 200 := by omega
  have hget : ¬ GET = ascii "HEAD" := by decide
  simp [bodiless, hs, hr.method, hn, hm, h1xx, hget]

theorem beginBody_length (hr : r.Told fs) (hc : announcesChunks fs = false)
    (hb : r.bodiless = false) :
    r.beginBody.length = (lookup fs (ascii "content-length")).elim (-1) atoi := by
  unfold announcesChunks at hc
  simp only [beginBody, hb, hr.headers, hc, Bool.false_eq_true, if_false]
  cases lookup fs (ascii "content-length") <;> rfl

theorem framed_written (hr : r.Told fs) (hs : r.status = status)
    (h : WrittenBody fs status wire body closes) :
    (closes = false → ∀ rest, r.beginBody.Framed wire body rest) ∧
      (closes = true → r.beginBody.room = none ∧ wire = body) := by
  have hchunked := beginBody_chunked hr
  cases h with
  | chunked b hc =>
    refine ⟨fun _ rest => ?_, fun h => nomatch h⟩
    rw [Framed, hchunked, hc, if_pos rfl]
    exact ⟨b, rfl, rfl⟩
  | sized data hc h200 h204 h304 hlookup hnum hlt hne =>
    refine ⟨fun _ rest => ?_, fun h => nomatch h⟩
    have hlen := beginBody_length hr hc (bodiless_false hr hs h200 h204 h304)
    rw [hlookup] at hlen
    rw [Framed, hchunked, hc, if_neg Bool.false_ne_true]
    exact ⟨rfl, hlen.trans (atoi_numeral hnum hlt), fun h => absurd h hne⟩
  | toClose data hc h200 h204 h304 hlookup =>
    refine ⟨fun h => (nomatch h), fun _ => ⟨?_, rfl⟩⟩
    have hlen := beginBody_length hr hc (bodiless_false hr hs h200 h204 h304)
    rw [hlookup] at hlen
    exact room_none.mpr ⟨hchunked.trans hc, hlen⟩

end Response

/-- The whole reply comes, and the close where it is needed. -/
def Written.Arrives (w : Written) (polls : List Poll) : Prop :=
  if w.closes then Connection.stream polls = w.text ∧ Connection.ending polls = some .closed
  else ∃ rest, Connection.stream polls = w.text ++ rest

/-- A written reply is read back. -/
theorem written_answers (w : Written) {polls : List Poll} (h : w.Arrives polls) :
    Answers polls w.body := by
  unfold Written.Arrives at h
  have hnew : (Response.new GET).Told [] := ⟨fun name => rfl, rfl, rfl⟩
  obtain ⟨t, htold, hstatus, hheads⟩ :=
    Response.written_heads (.inl rfl) hnew w.interims w.interim w.head w.last
  obtain ⟨hframed, hclose⟩ := Response.framed_written htold hstatus w.framed
  refine ⟨_, _, hheads, ?_⟩
  cases hc : w.closes with
  | false =>
    rw [hc, if_neg Bool.false_ne_true] at h
    obtain ⟨rest, he⟩ := h
    exact .inl ⟨w.wire, rest, he, hframed hc rest⟩
  | true =>
    rw [hc, if_pos rfl] at h
    obtain ⟨hroom, hwire⟩ := hclose hc
    exact .inr ⟨h.2, hroom, by rw [h.1, Written.text, hwire]⟩

theorem written_completes (w : Written) (hc : w.closes = false) (rest : List UInt8) :
    (Response.new GET).Completes (w.text ++ rest) w.body rest := by
  have hnew : (Response.new GET).Told [] := ⟨fun name => rfl, rfl, rfl⟩
  obtain ⟨t, htold, hstatus, hheads⟩ :=
    Response.written_heads (.inl rfl) hnew w.interims w.interim w.head w.last
  have hframed := (Response.framed_written htold hstatus w.framed).1 hc rest
  exact (Response.completes_iff GET).mpr ⟨_, w.wire, _, hheads, rfl, hframed⟩

variable {host uri : List UInt8} {s : Script}

/-- Heads that announce that there is no body. -/
structure Bodyless where
  interims : List WrittenHead
  head : WrittenHead
  interim : ∀ h ∈ interims, h.line.status = 100
  last : head.line.status ≠ 100
  unchunked : announcesChunks ((interims.map WrittenHead.fields).flatten ++ head.fields) = false
  empty : head.line.status = 204 ∨ head.line.status = 304 ∨
    ∃ text, lookup ((interims.map WrittenHead.fields).flatten ++ head.fields)
    (ascii "content-length") = some text ∧
      Numeral 10 0 text

def Bodyless.text (b : Bodyless) : List UInt8 :=
  (b.interims.map fun h => h.head.wire).flatten ++ b.head.head.wire

namespace Response

variable {r : Response} {fs : List Field}

theorem beginBody_bodyless (hr : r.Told fs) (hc : announcesChunks fs = false) {status : Nat}
    (hs : r.status = status)
    (he : status = 204 ∨ status = 304 ∨ ∃ text, lookup fs (ascii "content-length") = some text ∧
      Numeral 10 0 text) :
    r.beginBody.length = 0 := by
  cases hb : r.bodiless with
  | true => simp [beginBody, hb]
  | false =>
    rcases he with rfl | rfl | ⟨text, hlookup, hnum⟩
    · exact absurd hb (by simp [bodiless, hs, NO_CONTENT])
    · exact absurd hb (by simp [bodiless, hs, NOT_MODIFIED])
    · rw [beginBody_length hr hc hb, hlookup]
      exact atoi_numeral (n := 0) hnum (by decide)

end Response

/-- A response without a body is not complete before a byte comes behind it. -/
theorem bodyless_run (b : Bodyless) : ∃ r : Response,
    r.state = .body ∧ r.chunked = false ∧ r.room = some 0 ∧
    ∀ rest, Response.byByte.run (.new GET) (b.text ++ rest) = Response.byByte.run r rest := by
  have hnew : (Response.new GET).Told [] := ⟨fun name => rfl, rfl, rfl⟩
  obtain ⟨t, htold, hstatus, hheads⟩ :=
    Response.written_heads (.inl rfl) hnew b.interims b.interim b.head b.last
  have hlen := Response.beginBody_bodyless htold b.unchunked hstatus b.empty
  have hchunked := (Response.beginBody_chunked htold).trans b.unchunked
  obtain ⟨-, -, hread, hstate⟩ := Response.new_heads hheads []
  rw [hchunked, if_neg Bool.false_ne_true] at hstate
  refine ⟨_, hstate, hchunked, ?_, fun rest => (Response.new_heads hheads rest).1⟩
  simp [Response.room, hchunked, hlen, hread]

/-! ## A reply in two pieces -/

/-- A line that ends in CRLF. -/
def crlf (text : List UInt8) (h : (10 : UInt8) ∉ text) : Line := ⟨text ++ [13], by simpa using h⟩

def okLine : StatusLine where
  lead := []
  version := ascii "HTTP/1.1"
  gap := [32]
  code := ascii "200"
  tail := ascii " OK"
  status := 200
  lead_space := by decide +kernel
  version_http := by decide +kernel
  version_plain := by decide +kernel
  gap_ne := by decide +kernel
  gap_space := by decide +kernel
  numeral := ⟨by decide +kernel, by decide +kernel, by decide +kernel⟩
  range := by decide +kernel
  tail_first := by decide +kernel
  tail_plain := by decide +kernel

def chunkedField : Field where
  name := ascii "Transfer-Encoding"
  gap := [32]
  value := ascii "Chunked"
  folds := []
  name_ne := by decide +kernel
  name_first := by decide +kernel
  name_plain := by decide +kernel
  gap_blank := by decide +kernel
  value_plain := by decide +kernel

def emptyLine : Line := crlf [] (by decide +kernel)

def okHead : WrittenHead where
  head := ⟨crlf okLine.text (by decide +kernel),
    ⟨[crlf chunkedField.first (by decide +kernel)],
    emptyLine, by decide +kernel, by decide +kernel⟩⟩
  line := okLine
  fields := [chunkedField]
  status_text := by decide +kernel
  field_texts := by decide +kernel

def hello : Chunk where
  size := crlf (ascii "05;x") (by decide +kernel)
  data := ascii "hello"
  ending := emptyLine
  counts := by decide +kernel
  ne_nil := by decide +kernel

def helloBody : ChunkedBody :=
  ⟨[hello], crlf (ascii "0") (by decide +kernel), by decide +kernel,
  ⟨[], emptyLine, by decide +kernel, by decide +kernel⟩⟩

theorem okHead_chunked : announcesChunks okHead.fields = true := by decide +kernel

def helloReply : Written where
  interims := []
  head := okHead
  wire := helloBody.wire
  body := helloBody.data
  closes := false
  interim := fun h hh => nomatch hh
  last := by decide +kernel
  framed := .chunked helloBody okHead_chunked

/-- The reply comes in two pieces. -/
def helloScript : Script where
  net := ⟨.done, []⟩
  sends := [20, 100]
  polls := [.received (helloReply.text.take 30), .idle, .received (helloReply.text.drop 30)]

/-- **A reply that a server writes is returned**, in whatever pieces it comes
and whatever comes behind it. -/
theorem get_written (hs : Sends host uri s) (w : Written) (hw : w.Arrives s.polls) :
    get host uri s = .ok w.body :=
  get_ok.mpr ⟨hs, written_answers w hw⟩

theorem get_written_hello : get (ascii "h") (ascii "/p?") helloScript = .ok (ascii "hello") :=
  get_written ⟨rfl, by decide +kernel, by decide +kernel⟩ helloReply ⟨[], by decide +kernel⟩

/-- **A reply that is cut off is never returned**: the close is an exception. -/
theorem get_cutOff (hs : Sends host uri s) (w : Written) (hc : w.closes = false) {m : List UInt8}
    (hcut : w.text = Connection.stream s.polls ++ m) (hm : m ≠ [])
    (hclosed : Connection.ending s.polls = some .closed) : get host uri s =
      .error (.wobbly .closedUnexpectedly) := by
  have h := written_completes w hc []
  rw [List.append_nil, hcut] at h
  exact get_cut hs h hm hclosed

theorem get_cutOff_hello :
    get (ascii "h") (ascii "/p?") { helloScript with
      polls := [.received (helloReply.text.take 60), .received []] } =
      .error (.wobbly .closedUnexpectedly) :=
  get_cutOff
    (s := { helloScript with polls := [.received (helloReply.text.take 60), .received []] })
    ⟨rfl, by decide +kernel, by decide +kernel⟩ helloReply rfl (m := helloReply.text.drop 60)
    (by decide +kernel) (by decide +kernel)
    (by decide +kernel)

/-- **A reply without a body is returned only if something follows it.**
Otherwise the client waits for one more byte, and takes the close for an
error. -/
theorem get_bodyless (hs : Sends host uri s) (b : Bodyless) :
    (Connection.stream s.polls = b.text → Connection.ending s.polls = none →
      get host uri s = .error .waiting) ∧
      (Connection.stream s.polls = b.text → Connection.ending s.polls = some .closed →
        get host uri s = .error (.wobbly .closedUnexpectedly)) ∧
      ∀ next rest, Connection.stream s.polls = b.text ++ next :: rest →
        get host uri s = .ok [] := by
  obtain ⟨r, hstate, hc, hroom, hrun⟩ := bodyless_run b
  have hopen : r.completed = false := by
    rw [← Bool.not_eq_true, Connection.completed_iff, hstate]
    simp
  have hnil : Response.byByte.run (.new GET) b.text = .ok ⟨r, [], []⟩ := by
    have h := hrun []
    rwa [List.append_nil] at h
  have hq := Reader.queue_run_on Connection.completed_stops hnil hopen []
  refine ⟨fun hstream hending => ?_, fun hstream hending => ?_, fun next rest hstream => ?_⟩
  · rw [get_conclude hs, hstream, Connection.inTurn, hq, hending]
    rfl
  · rw [get_conclude hs, hstream, Connection.inTurn, hq, hending]
    show (Response.wobbly r.notifyconnectionclosed).map _ = _
    have hlen : r.length ≠ -1 := fun h => by simp [Response.room, hc, h] at hroom
    simp [Response.notifyconnectionclosed, hstate, hlen, Response.wobbly,
      Except.mapError, Except.map]
  · refine get_ok.mpr ⟨hs, answers_iff.mpr (.inl ⟨next :: rest, r.finish, ?_, rfl⟩)⟩
    rw [hstream, hrun, Response.run_empty hstate hc hroom (List.cons_ne_nil _ _)]

def lengthField : Field where
  name := ascii "content-length"
  gap := [32, 9]
  value := ascii "0"
  folds := []
  name_ne := by decide +kernel
  name_first := by decide +kernel
  name_plain := by decide +kernel
  gap_blank := by decide +kernel
  value_plain := by decide +kernel

def emptyReply : Bodyless where
  interims := []
  head :=
    { head := ⟨crlf okLine.text (by decide +kernel),
      ⟨[crlf lengthField.first (by decide +kernel)],
      emptyLine, by decide +kernel, by decide +kernel⟩⟩
      line := okLine
      fields := [lengthField]
      status_text := by decide +kernel
      field_texts := by decide +kernel }
  interim := fun h hh => nomatch hh
  last := by decide +kernel
  unchunked := by decide +kernel
  empty := .inr
    (.inr ⟨ascii "0", by decide +kernel, by decide +kernel, by decide +kernel, by decide +kernel⟩)

theorem get_bodyless_close :
    get (ascii "h") (ascii "/p?") { helloScript with
      polls := [.received emptyReply.text, .received []] } =
      .error (.wobbly .closedUnexpectedly) :=
  (get_bodyless (s := { helloScript with polls := [.received emptyReply.text, .received []] })
    ⟨rfl, by decide +kernel, by decide +kernel⟩ emptyReply).2.1 (by decide +kernel)
    (by decide +kernel)

/-- **A complete reply is pumped to its last byte**, and what its fields say is there. -/
theorem pump_written (w : Written) (hc : w.closes = false) (rest : List UInt8) :
    ∃ r, (Response.new GET).pump (w.text ++ rest) = .ok ⟨r, w.body, rest⟩ ∧ r.completed = true ∧
      r.status = w.head.line.status ∧
      ∀ name, r.getheader name = lookup ((w.interims.map WrittenHead.fields).flatten ++
        w.head.fields) name := by
  have hnew : (Response.new GET).Told [] := ⟨fun name => rfl, rfl, rfl⟩
  obtain ⟨t, htold, hstatus, hheads⟩ :=
    Response.written_heads (.inl rfl) hnew w.interims w.interim w.head w.last
  obtain ⟨r, hrun, hr⟩ := written_completes w hc rest
  obtain ⟨hskip, -, -, hstate⟩ := Response.new_heads hheads (w.wire ++ rest)
  have hpast : t.beginBody.state ≠ .statusLine ∧ t.beginBody.state ≠ .headers := by
    rw [hstate]
    split <;> simp
  have hbody := hrun
  rw [Written.text, List.append_assoc] at hbody
  obtain ⟨-, -, -, hs, hh⟩ := Response.run_announced hpast (hskip.symm.trans hbody)
  refine ⟨r, (Response.pump_eq _ _).trans hrun, Connection.completed_iff.mpr hr,
    hs.trans hstatus, fun name => ?_⟩
  rw [Response.getheader, hh]
  exact htold.headers name

theorem pump_written_hello :
    ∃ r, (Response.new GET).pump (helloReply.text ++ [7]) = .ok ⟨r, ascii "hello", [7]⟩ ∧
    r.completed = true ∧ r.status = 200 ∧ ∀ name, r.getheader name = lookup [chunkedField] name :=
  pump_written helloReply rfl [7]

theorem replies_written (ws : List Written) (hws : ∀ w ∈ ws, w.closes = false) (rest : List UInt8) :
    Replies (ws.map fun _ => .new GET) ((ws.map Written.text).flatten ++ rest)
    (ws.map Written.body).flatten rest := by
  induction ws with
  | nil => exact .nil rest
  | cons w ws ih =>
    rw [List.map_cons, List.map_cons, List.map_cons, List.flatten_cons,
      List.flatten_cons, List.append_assoc]
    exact .cons (written_completes w (hws w List.mem_cons_self) _)
      (ih (List.forall_mem_of_forall_mem_cons hws))

/-- **Replies to several requests on one connection** are told apart, and come in order. -/
theorem pumpAll_written (c : Connection) (ws : List Written) (hws : ∀ w ∈ ws, w.closes = false)
    (hc : c.outstanding = ws.map fun _ => .new GET) (polls : List Poll) (rest : List UInt8)
    (hstream : Connection.stream polls = (ws.map Written.text).flatten ++ rest) :
    c.pumpAll polls = .ok (ws.map Written.body).flatten := by
  have hopen : ∀ r ∈ c.outstanding, r.completed = false := by
    rw [hc]
    intro r hr
    obtain ⟨-, -, rfl⟩ := List.mem_map.mp hr
    rfl
  refine (Connection.pumpAll_ok hopen).mpr (.inl ⟨rest, ?_⟩)
  rw [hc, hstream]
  exact replies_written ws hws rest

theorem pumpAll_written_twice :
    Connection.pumpAll ⟨.idle, ascii "h", true, [], [.new GET, .new GET]⟩
      [.received (helloReply.text ++ helloReply.text.take 9), .received (helloReply.text.drop 9)] =
        .ok (ascii "hello" ++ (ascii "hello" ++ [])) :=
  pumpAll_written ⟨.idle, ascii "h", true, [], [.new GET, .new GET]⟩ [helloReply, helloReply]
    (fun w hw => by simp at hw; rw [hw]; rfl) rfl
    [.received (helloReply.text ++ helloReply.text.take 9), .received (helloReply.text.drop 9)] []
      (by decide +kernel)

end MonitorAgent.L1.Http
