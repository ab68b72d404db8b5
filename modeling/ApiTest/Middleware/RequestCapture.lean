import ApiTest.Capped.Buffer
import ApiTest.Middleware.Audit
import ApiTest.Net.Body

/-! The request side of the audit middleware. The handler reads the body through
`readCloserTee`, which hands every call on and shows what was read to a capped writer.
The handler cannot tell, and the copy is the beginning of what it read. The size of
the inbound body is taken from the copy, so it is one only as far as the copy is. -/

namespace ApiTest.Middleware

open Text Audit Net Capped

variable {σ τ ε : Type}

/-- `readCloserTee` over a body and a writer, whose results are dropped. -/
def readCloserTee (R : ReadCloser σ ε) (w : GoString → τ → τ) : ReadCloser (τ × σ) ε where
  read p s :=
    let (res, inner) := R.read p s.2
    (res, if 0 < res.n then w res.bytes s.1 else s.1, inner)
  close s :=
    let (err, inner) := R.close s.2
    (err, s.1, inner)
  length_buffer p s := R.length_buffer p s.2
  n_le p s := R.n_le p s.2

/-- The chunks that reach the writer. -/
def chunks (results : List (BodyResult ε)) : List GoString :=
  (results.map BodyResult.bytes).filter (· ≠ [])

theorem flatten_chunks (results : List (BodyResult ε)) :
    (chunks results).flatten = bytesRead results := by
  rw [chunks, bytesRead, List.flatMap_def]
  exact List.flatten_filter_ne_nil

/-- The tee returns what the body returns and leaves it as it would be left. -/
theorem run_readCloserTee (R : ReadCloser σ ε) (w : GoString → τ → τ) (calls : List BodyCall)
    (t : τ) (s : σ) :
    (readCloserTee R w).run (t, s) calls =
      ((R.run s calls).1, (chunks (R.run s calls).1).foldl (fun t b => w b t) t,
        (R.run s calls).2) := by
  induction calls generalizing t s with
  | nil => rfl
  | cons c calls ih =>
    rw [ReadCloser.run, ReadCloser.run]
    cases c with
    | close =>
      have hcall : (readCloserTee R w).call (t, s) .close =
          ((R.call s .close).1, t, (R.call s .close).2) := rfl
      rw [hcall, ih]
      rfl
    | read p =>
      have hcall : (readCloserTee R w).call (t, s) (.read p) = ((R.call s (.read p)).1,
          if 0 < (R.read p s).1.n then w (R.read p s).1.bytes t else t, (R.call s (.read p)).2) := rfl
      rw [hcall, ih]
      have hbytes : (R.call s (.read p)).1.bytes = (R.read p s).1.bytes := rfl
      by_cases hn : 0 < (R.read p s).1.n
      · have hne := R.bytes_ne_nil.mpr hn
        simp [chunks, hbytes, hn, hne]
      · have hnil := not_not.mp (mt R.bytes_ne_nil.mp hn)
        simp [chunks, hbytes, hn, hnil]

/-! ### The copy -/

/-- The copy as a capped buffer. -/
def Capture.buffer (c : Capture) : Buffer UInt8 := ⟨c.buf, c.oversize⟩

/-- `capWriter.Write` of some bytes; a negative cap leaves no room. -/
theorem buffer_write {p : GoString} (hp : p ≠ []) (max : ℤ) (c : Capture) :
    (c.write max p).buffer = c.buffer.push max.toNat p := by
  have hlength := List.length_pos_iff.mpr hp
  have hroom : (max - c.buf.length).toNat = max.toNat - c.buf.length := by omega
  simp only [Capture.write, Capture.buffer, Buffer.push]
  split_ifs with hfull
  · have hnone : max.toNat - c.buf.length = 0 := by omega
    simp [hnone, hlength]
  · rw [hroom, ← List.take_eq_take_min]
    simp only [Buffer.mk.injEq, true_and]
    congr 2
    rw [eq_iff_iff]
    omega

theorem buffer_foldl_write (max : ℤ) {bs : List GoString} (hbs : ∀ b ∈ bs, b ≠ []) :
    (bs.foldl (fun c b => Capture.write max b c) {}).buffer = keep max.toNat bs.flatten := by
  -- the copy is built chunk by chunk as the buffer is
  have hfold : ∀ c : Capture, (bs.foldl (fun c b => Capture.write max b c) c).buffer =
      bs.foldl (Buffer.push max.toNat) c.buffer := by
    induction bs with
    | nil => exact fun c => rfl
    | cons b bs ih =>
      intro c
      rw [List.forall_mem_cons] at hbs
      rw [List.foldl_cons, List.foldl_cons, ih hbs.2, buffer_write hbs.1]
  rw [hfold, ← List.nil_append bs.flatten, ← foldl_push, keep_nil]
  rfl

/-- The bytes a handler reads. -/
def readBytes (acts : List HandlerAct) : GoString :=
  acts.flatMap fun
    | .read chunk => chunk
    | _ => []

section Serve
variable (opts : AuditOptions) (hcapture : opts.capturePayloads = true)
include hcapture

theorem buffer_act {x : Exchange} {stream : GoString} (act : HandlerAct)
    (hx : x.request.buffer = keep opts.maxPayloadBytes.toNat stream) :
    (x.act opts true act).request.buffer =
      keep opts.maxPayloadBytes.toNat (stream ++ readBytes [act]) := by
  cases act with
  | read chunk =>
    have hread : readBytes [.read chunk] = chunk := List.append_nil _
    by_cases hchunk : chunk = []
    · subst hchunk
      simpa [Exchange.act, readBytes] using hx
    · simp only [Exchange.act, hcapture, hchunk, hread, Bool.and_self, ne_eq, not_false_eq_true,
        decide_true, if_true]
      rw [buffer_write hchunk, hx, push_keep]
  | _ => simpa [Exchange.act, readBytes] using hx

/-- With capture on, the copy is the beginning of what the handler reads. -/
theorem buffer_serve (acts : List HandlerAct) :
    (serve opts true acts).request.buffer = keep opts.maxPayloadBytes.toNat (readBytes acts) := by
  have hfold : ∀ (x : Exchange) (stream : GoString),
      x.request.buffer = keep opts.maxPayloadBytes.toNat stream →
      (acts.foldl (Exchange.act opts true) x).request.buffer =
        keep opts.maxPayloadBytes.toNat (stream ++ readBytes acts) := by
    induction acts with
    | nil => exact fun x stream hx => by simpa [readBytes] using hx
    | cons act acts ih =>
      intro x stream hx
      have hcons : readBytes (act :: acts) = readBytes [act] ++ readBytes acts := by
        simp [readBytes]
      rw [List.foldl_cons, hcons, ← List.append_assoc]
      exact ih _ _ (buffer_act opts hcapture act hx)
  exact hfold {} [] (by rw [keep_nil]; rfl)

end Serve

/-- Without capture there is no copy. -/
theorem request_serve_of_not {opts : AuditOptions} (hcapture : opts.capturePayloads = false)
    (hasBody : Bool) (acts : List HandlerAct) : (serve opts hasBody acts).request = {} := by
  have hact : ∀ (x : Exchange) (act : HandlerAct),
      (x.act opts hasBody act).request = x.request := by
    intro x act
    cases act <;> simp [Exchange.act, hcapture]
  unfold serve
  induction acts using List.reverseRecOn with
  | nil => rfl
  | append_singleton acts act ih => rw [List.foldl_concat, hact, ih]

/-! ### The payload -/

/-- The payload holds what was read, up to the cap. -/
structure HoldsRead (cap : ℤ) (read : GoString) (p : Payload) : Prop where
  body : p.requestBody = read.take (min cap.toNat read.length)
  size : p.requestSizeBytes = p.requestBody.length
  truncated : p.requestTruncated = true ↔ cap < read.length

section Payload
variable [UnicodeCase]

theorem holdsRead_payload {cap : ℤ} (hcap : 0 ≤ cap) (opts : AuditOptions) (r : Inbound)
    {x : Exchange} {read : GoString} (hx : x.request.buffer = keep cap.toNat read) :
    HoldsRead cap read (payload opts r x) := by
  have hbuf : x.request.buf = read.take cap.toNat := congrArg Buffer.kept hx
  have hover : x.request.oversize = decide (cap.toNat < read.length) := congrArg Buffer.dropped hx
  refine ⟨?_, rfl, ?_⟩
  · rw [← List.take_eq_take_min]
    exact hbuf
  · show x.request.oversize = true ↔ _
    rw [hover, decide_eq_true_eq]
    omega

/-- Request capture is invisible and exact. Whatever the body, the cap and the calls
are, the handler sees the results of the body itself and leaves it in the same state,
and a payload made of the copy holds the beginning of what was read. The event that
`Audit` logs has such a payload, whatever else the handler does. -/
theorem request_capture_exact (R : ReadCloser σ ε) (s : σ) (calls : List BodyCall) {cap : ℤ}
    (hcap : 0 ≤ cap) :
    let bare := R.run s calls
    let teed := (readCloserTee R (Capture.write cap)).run ({}, s) calls
    teed.1 = bare.1 ∧ teed.2.2 = bare.2 ∧
    (∀ opts r response,
      HoldsRead cap (bytesRead bare.1) (payload opts r ⟨teed.2.1, response⟩)) ∧
    ∀ registry opts clock r acts, opts.capturePayloads = true →
      opts.withDefaults.maxPayloadBytes = cap → r.hasBody = true →
      readBytes acts = bytesRead bare.1 →
      ∃ p, (audit registry opts clock r acts).payload = some p ∧
        HoldsRead cap (bytesRead bare.1) p := by
  intro bare teed
  have hteed : teed = (bare.1, (chunks bare.1).foldl (fun c b => Capture.write cap b c) {}, bare.2) :=
    run_readCloserTee R (Capture.write cap) calls {} s
  have hcopy : teed.2.1.buffer = keep cap.toNat (bytesRead bare.1) := by
    rw [hteed, ← flatten_chunks]
    exact buffer_foldl_write cap fun b hb => by simpa using (List.mem_filter.mp hb).2
  refine ⟨by rw [hteed], by rw [hteed], fun opts r response => holdsRead_payload hcap opts r hcopy, ?_⟩
  intro registry opts clock r acts hcapture heff hbody hread
  have hserve := buffer_serve opts.withDefaults (by simpa using hcapture) acts
  rw [heff, hread] at hserve
  refine ⟨payload opts.withDefaults r (serve opts.withDefaults true acts), ?_,
    holdsRead_payload hcap _ r hserve⟩
  simp [audit, hcapture, hbody]

/-- The size of the inbound body as the event has it, for `k` bytes that were read. -/
def countedSize (opts : AuditOptions) (k : ℕ) : ℤ :=
  if opts.capturePayloads then if k ≤ opts.maxPayloadBytes.toNat then k else opts.maxPayloadBytes
  else 0

omit [UnicodeCase] in
theorem countedSize_eq_iff (opts : AuditOptions) (k : ℕ) :
    countedSize opts k = k ↔ k = 0 ∨ opts.capturePayloads = true ∧ k ≤ opts.maxPayloadBytes := by
  unfold countedSize
  split_ifs with hcapture hle
  · simp only [hcapture, true_and, true_iff]
    omega
  · simp only [hcapture, true_and]
    omega
  · simp only [hcapture, false_and, or_false, Bool.false_eq_true]
    omega

/-- When a handler reads the body to its end, `BytesIn` is the size of the body if it
fits below the cap and payloads are captured; a larger body counts as the cap, and
without capture every body counts as empty. -/
theorem bytesIn_of_copy (registry : Option Endpoints.Registry) (opts : AuditOptions) (clock : Clock)
    (r : Inbound) (acts : List HandlerAct) (body : GoString) (hbody : r.hasBody = true)
    (hread : readBytes acts = body) :
    (audit registry opts clock r acts).bytesIn = countedSize opts.withDefaults body.length ∧
    ((audit registry opts clock r acts).bytesIn = body.length ↔
      body = [] ∨ opts.capturePayloads = true ∧
        body.length ≤ opts.withDefaults.maxPayloadBytes) := by
  have hbytes : (audit registry opts clock r acts).bytesIn =
      countedSize opts.withDefaults body.length := by
    simp only [audit, countedSize, hbody, withDefaults_capturePayloads]
    cases hcapture : opts.capturePayloads with
    | false =>
      have hoff : opts.withDefaults.capturePayloads = false := by simpa using hcapture
      simp [request_serve_of_not hoff]
    | true =>
      have hserve := buffer_serve opts.withDefaults (by simpa using hcapture) acts
      rw [hread] at hserve
      have hbuf : (serve opts.withDefaults true acts).request.buf =
          body.take opts.withDefaults.maxPayloadBytes.toNat := congrArg Buffer.kept hserve
      have hover : (serve opts.withDefaults true acts).request.oversize =
          decide (opts.withDefaults.maxPayloadBytes.toNat < body.length) :=
        congrArg Buffer.dropped hserve
      rw [hbuf, hover, List.length_take]
      simp only [decide_eq_true_eq, if_true]
      split_ifs <;> omega
  refine ⟨hbytes, ?_⟩
  rw [hbytes, countedSize_eq_iff, withDefaults_capturePayloads, List.length_eq_zero_iff]

end Payload

/-! ### A body that is a string -/

/-- `strings.Reader` with a `Close` that does nothing; the only error is the end. -/
def stringsReader : ReadCloser GoString Unit where
  read p s :=
    let n := min p.length s.length
    (⟨s.take n ++ p.drop n, n, if s = [] then some () else none⟩, s.drop n)
  close s := (none, s)
  length_buffer p s := by
    simp only [List.length_append, List.length_take, List.length_drop]
    omega
  n_le p s := min_le_left _ _

/-- A request with a body. -/
def bodyRequest : Inbound := ⟨lit "POST", lit "/v1/echo", [], [], [], true, [], none⟩

/-- Eleven bytes in two reads, four of them kept. -/
theorem hello_captured :
    (0 : ℤ) ≤ 4 ∧ ∃ p, (@audit asciiCase none ⟨true, true, 4, []⟩ ⟨0, 0, 0⟩ bodyRequest
        [.read (lit "hello wo"), .writeHeader 200, .read (lit "rld")]).payload = some p ∧
      HoldsRead 4 (lit "hello world") p :=
  ⟨by decide,
    (@request_capture_exact _ _ asciiCase stringsReader (lit "hello world")
      [.read (List.replicate 8 0), .read (List.replicate 8 0), .read (List.replicate 8 0), .close] 4
      (by decide)).2.2.2 none ⟨true, true, 4, []⟩ ⟨0, 0, 0⟩ bodyRequest _ rfl rfl rfl (by decide)⟩

/-- The size is that of the body. -/
theorem hello_counted :
    bodyRequest.hasBody = true ∧ readBytes [.read (lit "hello world")] = lit "hello world" ∧
    (@audit asciiCase none ⟨true, true, 1024, []⟩ ⟨0, 0, 0⟩ bodyRequest
      [.read (lit "hello world")]).bytesIn = (lit "hello world").length :=
  ⟨rfl, by decide,
    (@bytesIn_of_copy asciiCase none ⟨true, true, 1024, []⟩ ⟨0, 0, 0⟩ bodyRequest
      [.read (lit "hello world")] (lit "hello world") rfl (by decide)).2.mpr (.inr ⟨rfl, by decide⟩)⟩

/-- The same eleven bytes without capture, above the cap and under a negative cap. -/
theorem hello_miscounted :
    let counted opts := (@audit asciiCase none opts ⟨0, 0, 0⟩ bodyRequest
      [.read (lit "hello world")]).bytesIn
    counted ⟨false, true, 1024, []⟩ = 0 ∧ counted ⟨true, true, 4, []⟩ = 4 ∧
      counted ⟨true, true, -1, []⟩ = -1 ∧
      (readBytes [.read (lit "hello world")]).length = 11 := by
  decide +kernel

end ApiTest.Middleware
