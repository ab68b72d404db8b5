import ApiTest.Capped.Buffer
import ApiTest.Middleware.Recorders

/-! Whether the captured response is what was sent. `auditRecorder.Write` copies bytes
before it hands them to the wrapped writer, and counts the ones the writer took
afterwards. A write that is taken only in part leaves bytes in the copy that were
never sent. Which bytes these are does not matter to the code, so the condition is one
on the lengths of the writes and how much of each was taken. -/

namespace ApiTest.Middleware

open Text Net Capped

/-- The bytes the handler wrote, taken or not. -/
def attempted (acts : List HandlerAct) : GoString :=
  acts.flatMap fun
    | .write b _ => b
    | _ => []

/-- The bytes the wrapped writer took. -/
def accepted (acts : List HandlerAct) : GoString :=
  acts.flatMap fun
    | .write b n => b.take n
    | _ => []

/-- The length of each write and how much of it was taken. -/
def sizes (acts : List HandlerAct) : List (ℕ × ℕ) :=
  acts.filterMap fun
    | .write b n => some (b.length, n)
    | _ => none

@[simp] theorem attempted_write (b : GoString) (n : ℕ) (acts : List HandlerAct) :
    attempted (.write b n :: acts) = b ++ attempted acts := rfl

@[simp] theorem accepted_write (b : GoString) (n : ℕ) (acts : List HandlerAct) :
    accepted (.write b n :: acts) = b.take n ++ accepted acts := rfl

@[simp] theorem sizes_write (b : GoString) (n : ℕ) (acts : List HandlerAct) :
    sizes (.write b n :: acts) = (b.length, n) :: sizes acts := rfl

/-- No writer takes more than it is given. -/
def Takes (sizes : List (ℕ × ℕ)) : Prop := ∀ size ∈ sizes, size.2 ≤ size.1

instance : DecidablePred Takes := fun sizes => inferInstanceAs (Decidable (∀ size ∈ sizes, _))

/-- The number of bytes taken up to the end of the first write that was not taken in
full. -/
def firstShort : List (ℕ × ℕ) → Option ℕ
  | [] => none
  | (length, n) :: rest => if n < length then some n else (firstShort rest).map (n + ·)

/-- The writes are taken in full, up to the cap and one byte beyond. -/
def WithinCap (cap : ℕ) (sizes : List (ℕ × ℕ)) : Prop :=
  ∀ n ∈ firstShort sizes, cap ≤ n ∧ cap < (sizes.map Prod.snd).sum

instance (cap : ℕ) : DecidablePred (WithinCap cap) :=
  fun sizes => inferInstanceAs (Decidable (∀ n ∈ firstShort sizes, _))

/-- The captured response of a recorder is the one that was sent, up to the cap. -/
structure Matches (max : ℤ) (acts : List HandlerAct) (a : Recorder) : Prop where
  body : a.body = (accepted acts).take (min max.toNat (accepted acts).length)
  bytesTotal : a.bytesTotal = (accepted acts).length
  truncated : a.truncated = true ↔ max.toNat < (accepted acts).length

/-! ### What the recorder keeps -/

section Recorder

@[simp] theorem writeHeader_body (code : ℤ) (a : Recorder) : (a.writeHeader code).body = a.body := by
  unfold Recorder.writeHeader
  split_ifs <;> rfl

@[simp] theorem writeHeader_truncated (code : ℤ) (a : Recorder) :
    (a.writeHeader code).truncated = a.truncated := by
  unfold Recorder.writeHeader
  split_ifs <;> rfl

@[simp] theorem writeHeader_bytesTotal (code : ℤ) (a : Recorder) :
    (a.writeHeader code).bytesTotal = a.bytesTotal := by
  unfold Recorder.writeHeader
  split_ifs <;> rfl

variable (opts : AuditOptions) (hasBody : Bool)

/-- What the recorder holds after some actions. -/
structure Copied (acts : List HandlerAct) (a : Recorder) : Prop where
  body : a.body = (attempted acts).take opts.maxPayloadBytes.toNat
  truncated : a.truncated = decide (opts.maxPayloadBytes.toNat < (attempted acts).length)
  bytesTotal : a.bytesTotal = ((sizes acts).map Prod.snd).sum

variable {opts} {acts : List HandlerAct} {a : Recorder}

/-- An action that writes nothing. -/
theorem Copied.skip (h : Copied opts acts a) {act : HandlerAct} {a' : Recorder}
    (hact : attempted [act] = [] ∧ sizes [act] = [])
    (ha : a'.body = a.body ∧ a'.truncated = a.truncated ∧ a'.bytesTotal = a.bytesTotal) :
    Copied opts (acts ++ [act]) a' := by
  have hattempted : attempted (acts ++ [act]) = attempted acts := by
    rw [attempted, List.flatMap_append]
    exact (congrArg _ hact.1).trans (List.append_nil _)
  have hsizes : sizes (acts ++ [act]) = sizes acts := by
    rw [sizes, List.filterMap_append]
    exact (congrArg _ hact.2).trans (List.append_nil _)
  exact ⟨by rw [ha.1, hattempted, h.body], by rw [ha.2.1, hattempted, h.truncated],
    by rw [ha.2.2, hsizes, h.bytesTotal]⟩

/-- The copy as a capped buffer. -/
def Recorder.buffer (a : Recorder) : Buffer UInt8 := ⟨a.body, a.truncated⟩

/-- `auditRecorder.Write` with capture on; a negative cap leaves no room. -/
theorem buffer_capture (max : ℤ) (b : GoString) (n : ℕ) (a : Recorder) :
    (a.write max true b n).buffer = a.buffer.push max.toNat b := by
  have hroom : (max - (a.body.length : ℤ)).toNat = max.toNat - a.body.length := by omega
  simp only [Recorder.buffer, Recorder.write, if_true, Recorder.capture, writeHeader_body,
    writeHeader_truncated, Buffer.push, hroom]
  rw [← List.take_eq_take_min, Buffer.mk.injEq]
  refine ⟨rfl, congrArg (a.truncated || ·) (decide_eq_decide.mpr ?_)⟩
  omega

theorem Copied.write (hcapture : opts.capturePayloads = true) (h : Copied opts acts a)
    (b : GoString) (n : ℕ) :
    Copied opts (acts ++ [.write b n])
      (a.write opts.maxPayloadBytes opts.capturePayloads b n) := by
  have hattempted : attempted (acts ++ [.write b n]) = attempted acts ++ b := by
    rw [attempted, List.flatMap_append, List.flatMap_singleton]
    rfl
  have hsizes : sizes (acts ++ [.write b n]) = sizes acts ++ [(b.length, n)] := by
    rw [sizes, List.filterMap_append]
    rfl
  have hbuffer : a.buffer = keep opts.maxPayloadBytes.toNat (attempted acts) := by
    rw [Recorder.buffer, h.body, h.truncated, keep]
  have hwritten : (a.write opts.maxPayloadBytes true b n).buffer =
      keep opts.maxPayloadBytes.toNat (attempted (acts ++ [.write b n])) := by
    rw [buffer_capture, hbuffer, push_keep, hattempted]
  rw [hcapture]
  refine ⟨congrArg Buffer.kept hwritten, congrArg Buffer.dropped hwritten, ?_⟩
  simp only [Recorder.write, if_true, Recorder.capture, writeHeader_bytesTotal, hsizes, h.bytesTotal,
    List.map_append, List.sum_append]
  simp

theorem Copied.act (hcapture : opts.capturePayloads = true) {x : Exchange}
    (h : Copied opts acts x.response) (act : HandlerAct) :
    Copied opts (acts ++ [act]) (x.act opts hasBody act).response := by
  cases act with
  | read chunk =>
    refine h.skip ⟨rfl, rfl⟩ ?_
    unfold Exchange.act
    dsimp only
    split_ifs <;> exact ⟨rfl, rfl, rfl⟩
  | setHeader header => exact h.skip ⟨rfl, rfl⟩ ⟨rfl, rfl, rfl⟩
  | writeHeader code => exact h.skip ⟨rfl, rfl⟩ (by simp [Exchange.act])
  | write b n => exact h.write hcapture b n

theorem copied_serve (hcapture : opts.capturePayloads = true) (acts : List HandlerAct) :
    Copied opts acts (serve opts hasBody acts).response := by
  induction acts using List.reverseRecOn with
  | nil => exact ⟨by simp [serve, attempted], by simp [serve, attempted], by simp [serve, sizes]⟩
  | append_singleton acts act ih =>
    have hserve : serve opts hasBody (acts ++ [act]) =
        (serve opts hasBody acts).act opts hasBody act := by
      rw [serve, List.foldl_append]
      rfl
    rw [hserve]
    exact ih.act hasBody hcapture act

end Recorder

/-! ### What the writer took -/

section Taken
variable {acts : List HandlerAct}

theorem length_accepted (h : Takes (sizes acts)) :
    (accepted acts).length = ((sizes acts).map Prod.snd).sum := by
  induction acts with
  | nil => rfl
  | cons act acts ih =>
    cases act with
    | write b n =>
      obtain ⟨hn, hrest⟩ := List.forall_mem_cons.mp h
      rw [accepted_write, List.length_append, List.length_take, min_eq_left hn, ih hrest, sizes_write,
        List.map_cons, List.sum_cons]
    | _ => exact ih h

/-- Writes that are taken in full are what is sent. -/
theorem accepted_of_full (h : Takes (sizes acts)) (hshort : firstShort (sizes acts) = none) :
    accepted acts = attempted acts := by
  induction acts with
  | nil => rfl
  | cons act acts ih =>
    cases act with
    | write b n =>
      obtain ⟨hn, hrest⟩ := List.forall_mem_cons.mp h
      rw [sizes_write, firstShort] at hshort
      split_ifs at hshort with hlt
      rw [accepted_write, attempted_write, List.take_of_length_le (not_lt.mp hlt),
        ih hrest (Option.map_eq_none_iff.mp hshort)]
    | _ => exact ih h hshort

/-- Up to the end of the first short write both sides agree, and more was to be
written. -/
theorem take_accepted (h : Takes (sizes acts)) {m : ℕ} (hshort : firstShort (sizes acts) = some m) :
    (attempted acts).take m = (accepted acts).take m ∧ m < (attempted acts).length := by
  induction acts generalizing m with
  | nil => cases hshort
  | cons act acts ih =>
    cases act with
    | write b n =>
      obtain ⟨hn, hrest⟩ := List.forall_mem_cons.mp h
      rw [sizes_write, firstShort] at hshort
      rw [attempted_write, accepted_write, List.length_append]
      split_ifs at hshort with hlt
      · cases hshort
        rw [List.take_append_of_le_length hlt.le,
          List.take_append_of_le_length (by rw [List.length_take, min_eq_left hlt.le]), List.take_take,
          min_self]
        exact ⟨rfl, by omega⟩
      · obtain ⟨m, hm, rfl⟩ := Option.map_eq_some_iff.mp hshort
        obtain ⟨htake, hlength⟩ := ih hrest hm
        have hfull : n = b.length := le_antisymm hn (not_lt.mp hlt)
        rw [List.take_of_length_le hfull.ge, hfull, List.take_length_add_append,
          List.take_length_add_append, htake]
        exact ⟨rfl, by omega⟩
    | _ => exact ih h hshort

end Taken

/-! ### Bytes that show the difference -/

/-- Writes of the given sizes, all of them zeros but for the byte behind the first
part that is not taken. -/
def flagged : List (ℕ × ℕ) → List HandlerAct
  | [] => []
  | (length, n) :: rest =>
    if n < length then
      .write (List.replicate n 0 ++ 1 :: List.replicate (length - n - 1) 0) n ::
        rest.map fun size => .write (List.replicate size.1 0) size.2
    else .write (List.replicate length 0) n :: flagged rest

theorem sizes_zeros (s : List (ℕ × ℕ)) :
    sizes (s.map fun size => .write (List.replicate size.1 0) size.2) = s := by
  induction s with
  | nil => rfl
  | cons size rest ih => rw [List.map_cons, sizes_write, ih, List.length_replicate]

theorem sizes_flagged (s : List (ℕ × ℕ)) : sizes (flagged s) = s := by
  induction s with
  | nil => rfl
  | cons size rest ih =>
    obtain ⟨length, n⟩ := size
    unfold flagged
    split_ifs with hlt
    · rw [sizes_write, sizes_zeros]
      simp only [List.length_append, List.length_replicate, List.length_cons, List.cons.injEq,
        Prod.mk.injEq, and_true]
      omega
    · rw [sizes_write, ih, List.length_replicate]

theorem accepted_zeros {s : List (ℕ × ℕ)} {c : UInt8}
    (h : c ∈ accepted (s.map fun size => .write (List.replicate size.1 0) size.2)) : c = 0 := by
  induction s with
  | nil => cases h
  | cons size rest ih =>
    rw [List.map_cons, accepted_write, List.mem_append] at h
    obtain h | h := h
    · exact List.eq_of_mem_replicate (List.mem_of_mem_take h)
    · exact ih h

theorem accepted_flagged {s : List (ℕ × ℕ)} {c : UInt8} (h : c ∈ accepted (flagged s)) : c = 0 := by
  induction s with
  | nil => cases h
  | cons size rest ih =>
    obtain ⟨length, n⟩ := size
    unfold flagged at h
    split_ifs at h with hlt
    · rw [accepted_write, List.mem_append, List.take_left' (List.length_replicate)] at h
      obtain h | h := h
      · exact List.eq_of_mem_replicate h
      · exact accepted_zeros h
    · rw [accepted_write, List.mem_append] at h
      obtain h | h := h
      · exact List.eq_of_mem_replicate (List.mem_of_mem_take h)
      · exact ih h

/-- The mark stands where the first short write broke off. -/
theorem attempted_flagged {s : List (ℕ × ℕ)} (hs : Takes s) {m : ℕ} (h : firstShort s = some m) :
    (attempted (flagged s))[m]? = some 1 := by
  induction s generalizing m with
  | nil => cases h
  | cons size rest ih =>
    obtain ⟨length, n⟩ := size
    obtain ⟨hn, hrest⟩ := List.forall_mem_cons.mp hs
    unfold firstShort at h
    unfold flagged
    split_ifs at h ⊢ with hlt
    · cases h
      rw [attempted_write, List.append_assoc, List.getElem?_append_right (by simp)]
      simp
    · obtain ⟨m, hm, rfl⟩ := Option.map_eq_some_iff.mp h
      have hfull : n = length := le_antisymm hn (not_lt.mp hlt)
      rw [attempted_write, List.getElem?_append_right (by simp [hfull]), List.length_replicate, hfull,
        Nat.add_sub_cancel_left]
      exact ih hrest hm

/-! ### The condition -/

section Condition
variable {opts : AuditOptions} (hcapture : opts.capturePayloads = true) (hasBody : Bool)
include hcapture

theorem matches_of_withinCap {acts : List HandlerAct} (hs : Takes (sizes acts))
    (h : WithinCap opts.maxPayloadBytes.toNat (sizes acts)) :
    Matches opts.maxPayloadBytes acts (serve opts hasBody acts).response := by
  have hcopied := copied_serve hasBody hcapture acts
  have hlength := length_accepted hs
  have htake : ∀ s : GoString, s.take (min opts.maxPayloadBytes.toNat s.length) =
      s.take opts.maxPayloadBytes.toNat := fun s => List.take_eq_take_min.symm
  cases hshort : firstShort (sizes acts) with
  | none =>
    have hfull := accepted_of_full hs hshort
    refine ⟨?_, by rw [hcopied.bytesTotal, hlength], ?_⟩
    · rw [htake, hfull, hcopied.body]
    · rw [hfull, hcopied.truncated, decide_eq_true_eq]
  | some m =>
    obtain ⟨hcap, htotal⟩ := h m hshort
    obtain ⟨hagree, hmore⟩ := take_accepted hs hshort
    refine ⟨?_, by rw [hcopied.bytesTotal, hlength], ?_⟩
    · have hprefix := congrArg (List.take opts.maxPayloadBytes.toNat) hagree
      rw [List.take_take, List.take_take, min_eq_left hcap] at hprefix
      rw [htake, hcopied.body, hprefix]
    · rw [hcopied.truncated, decide_eq_true_eq, hlength]
      exact ⟨fun _ => htotal, fun _ => by omega⟩

/-- For writes of given sizes, of which given parts are taken, the capture matches
what was sent, whatever the bytes are, if and only if the writes are taken in full up
to the cap and beyond. -/
theorem captured_iff {s : List (ℕ × ℕ)} (hs : Takes s) :
    (∀ acts, sizes acts = s → Matches opts.maxPayloadBytes acts (serve opts hasBody acts).response) ↔
      WithinCap opts.maxPayloadBytes.toNat s := by
  constructor
  · intro hmatches m hm
    have hflagged := hmatches (flagged s) (sizes_flagged s)
    have hcopied := copied_serve hasBody hcapture (flagged s)
    have hmark := attempted_flagged hs hm
    have hlength : (accepted (flagged s)).length = (s.map Prod.snd).sum := by
      rw [length_accepted (by rw [sizes_flagged]; exact hs), sizes_flagged]
    obtain ⟨hmore, -⟩ := List.getElem?_eq_some_iff.mp hmark
    have hcap : opts.maxPayloadBytes.toNat ≤ m := by
      -- otherwise the mark is captured
      by_contra hlt
      have hmem : (1 : UInt8) ∈ (serve opts hasBody (flagged s)).response.body := by
        rw [hcopied.body]
        refine List.mem_iff_getElem?.mpr ⟨m, ?_⟩
        rw [List.getElem?_take, if_pos (not_le.mp hlt), hmark]
      rw [hflagged.body] at hmem
      exact absurd (accepted_flagged (List.mem_of_mem_take hmem)) (by decide)
    refine ⟨hcap, ?_⟩
    rw [← hlength, ← hflagged.truncated, hcopied.truncated, decide_eq_true_eq]
    omega
  · intro h acts hacts
    subst hacts
    exact matches_of_withinCap hcapture hasBody hs h

end Condition

/-- Payloads are captured up to a cap. -/
def cappedAt (max : ℤ) : AuditOptions := ⟨true, true, max, []⟩

/-- A short write behind the cap. -/
theorem short_write_behind_cap :
    (cappedAt 3).capturePayloads = true ∧ Takes [(5, 5), (4, 0)] ∧
      ∀ acts, sizes acts = [(5, 5), (4, 0)] →
        Matches 3 acts (serve (cappedAt 3) false acts).response :=
  ⟨rfl, by decide,
    (@captured_iff (cappedAt 3) rfl false [(5, 5), (4, 0)] (by decide)).mpr (by decide)⟩

/-- A handler that sends 204 and then writes: the server takes nothing, and the
recorder keeps the bytes. -/
theorem refused_body_captured :
    let sent := (auditRecorder (cappedAt 16) (serverWriter {})).run ({}, {})
      [.writeHeader 204, .write (lit "gone")]
    sent.2.body = [] ∧ sent.1.bytesTotal = 0 ∧ sent.1.body = lit "gone" ∧
      ¬ Matches 16 [.writeHeader 204, .write (lit "gone") 0] sent.1 := by
  refine ⟨by decide, by decide, by decide, fun h => absurd h.body (by decide)⟩

end ApiTest.Middleware
