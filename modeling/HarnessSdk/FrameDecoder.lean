import HarnessSdk.RemoteCalls
import HarnessSdk.ServiceLibrary

/-!
# The incremental decoder

The decoder keeps what has come of a frame from one chunk to the next. However the bytes are cut it gets the objects that
successive reads get, but a call that meets a malformed frame does not return the objects that it has decoded before.
-/

namespace HarnessSdk
namespace UnixService

open Local (beBytes beNat length_beBytes beBytes_beNat)

variable {lib : Library} {buffer rest more payload : Bytes} {frames values : List Json.Object} {value : Json.Object}
variable {f : Failure}

/-- The loop of `feed`: what comes of it, and what is left in the buffer. -/
def feedLoop (lib : Library) (buffer : Bytes) (frames : List Json.Object) : Except Failure (List Json.Object) × Bytes :=
  if buffer.length < 4 then (.ok frames,buffer)
  else
    let size := beNat (buffer.take 4)
    if size > frameMaxBytes then (.error (.service .payloadTooLarge),buffer)
    else if buffer.length < 4 + size then (.ok frames,buffer)
    else
      match decodePayload lib ((buffer.drop 4).take size) with
      | .error f => (.error f,buffer.drop (4 + size))
      | .ok value => feedLoop lib (buffer.drop (4 + size)) (frames ++ [value])
termination_by buffer.length
decreasing_by
  rw [List.length_drop]
  omega

structure FrameDecoder where
  buffer : Bytes := []

/-- What a caller gets that feeds one chunk after the other: the objects up to the first error. -/
structure Delivery where
  objects : List Json.Object
  failure : Option Failure
  decoder : FrameDecoder

namespace FrameDecoder

def feed (lib : Library) (data : Bytes) (d : FrameDecoder) : Except Failure (List Json.Object) × FrameDecoder :=
  let (outcome,buffer) := feedLoop lib (d.buffer ++ data) []
  (outcome,{ buffer })

def feedAll (lib : Library) (d : FrameDecoder) : List Bytes → Delivery
  | [] => { objects := [], failure := none, decoder := d }
  | data :: chunks =>
    match d.feed lib data with
    | (.error f,d) => { objects := [], failure := some f, decoder := d }
    | (.ok frames,d) =>
      let later := feedAll lib d chunks
      { later with objects := frames ++ later.objects }

end FrameDecoder

/-! What is read. -/

theorem readFrame_shorter {eof : Bool} (h : readFrame lib buffer eof = some (.ok value,rest)) :
    rest.length < buffer.length := by
  unfold readFrame at h
  dsimp only at h
  split at h
  · cases eof <;> exact nomatch h
  split at h
  · exact nomatch h
  split at h
  · cases eof <;> exact nomatch h
  · obtain rfl := (Prod.mk.inj (Option.some.inj h)).2
    rw [List.length_drop]
    omega

/-- The objects that successive calls of `read_frame` return on a stream that ends after the bytes. -/
def readAll (lib : Library) (bytes : Bytes) : List Json.Object :=
  match _h : readFrame lib bytes true with
  | some (.ok value,rest) => value :: readAll lib rest
  | some (.error _,_) | none => []
termination_by bytes.length
decreasing_by exact readFrame_shorter _h

/-! One frame. -/

/-- A frame of which no part is missing: it is read to a value or an error. -/
theorem readFrame_cases (lib : Library) (buffer : Bytes) : readFrame lib buffer false = none ∨
    (4 ≤ buffer.length ∧ frameMaxBytes < beNat (buffer.take 4) ∧
      readFrame lib buffer false = some (.error (.service .payloadTooLarge),buffer.drop 4)) ∨
    ∃ payload rest, buffer = framed payload ++ rest ∧ payload.length ≤ frameMaxBytes ∧
      readFrame lib buffer false = some (decodePayload lib payload,rest) := by
  unfold readFrame
  dsimp only
  by_cases hheader : buffer.length < 4
  · exact .inl (if_pos hheader)
  rw [if_neg hheader]
  by_cases hsize : frameMaxBytes < beNat (buffer.take 4)
  · exact .inr (.inl ⟨not_lt.mp hheader,hsize,if_pos hsize⟩)
  rw [if_neg hsize]
  by_cases hshort : buffer.length < 4 + beNat (buffer.take 4)
  · exact .inl (if_pos hshort)
  rw [if_neg hshort]
  have hlength : ((buffer.drop 4).take (beNat (buffer.take 4))).length = beNat (buffer.take 4) := by
    rw [List.length_take,List.length_drop]
    omega
  have htake : beBytes 4 (beNat (buffer.take 4)) = buffer.take 4 := by
    have h := beBytes_beNat (buffer.take 4)
    rwa [List.length_take_of_le (not_lt.mp hheader)] at h
  refine .inr (.inr ⟨(buffer.drop 4).take (beNat (buffer.take 4)),buffer.drop (4 + beNat (buffer.take 4)),?_,?_,rfl⟩)
  · rw [framed,hlength,htake,List.append_assoc,← List.drop_drop,List.take_append_drop,List.take_append_drop]
  · omega

theorem readFrame_whole (hsize : payload.length ≤ frameMaxBytes) (rest : Bytes) (eof : Bool) :
    readFrame lib (framed payload ++ rest) eof = some (decodePayload lib payload,rest) := by
  have hlength := length_framed payload
  have htake : (framed payload ++ rest).take 4 = beBytes 4 payload.length := by
    rw [framed,List.append_assoc]
    exact List.take_left' (length_beBytes _ _)
  have hdrop : (framed payload ++ rest).drop 4 = payload ++ rest := by
    rw [framed,List.append_assoc]
    exact List.drop_left' (length_beBytes _ _)
  have hrest : (framed payload ++ rest).drop (4 + payload.length) = rest := List.drop_left' hlength
  unfold readFrame
  dsimp only
  rw [htake,framed_size hsize,hdrop,hrest,List.take_left,List.length_append,if_neg (by omega),if_neg (by omega),
    if_neg (by omega)]

theorem readFrame_oversize (hlength : 4 ≤ buffer.length) (hsize : frameMaxBytes < beNat (buffer.take 4)) (eof : Bool) :
    readFrame lib buffer eof = some (.error (.service .payloadTooLarge),buffer.drop 4) := by
  unfold readFrame
  dsimp only
  rw [if_neg (not_lt.mpr hlength),if_pos hsize]

/-- What comes after a frame has no influence on how it is read. -/
theorem readFrame_append {result : Except Failure Json.Object} (h : readFrame lib buffer false = some (result,rest))
    (more : Bytes) (eof : Bool) : readFrame lib (buffer ++ more) eof = some (result,rest ++ more) := by
  rcases readFrame_cases lib buffer with hnone | ⟨hlength,hsize,hread⟩ | ⟨payload,tail,hbuffer,hsize,hread⟩
  · exact nomatch hnone.symm.trans h
  · obtain ⟨rfl,rfl⟩ := Prod.mk.inj (Option.some.inj (hread.symm.trans h))
    have htake : (buffer ++ more).take 4 = buffer.take 4 := List.take_append_of_le_length hlength
    rw [readFrame_oversize (by rw [List.length_append]; omega) (by rw [htake]; exact hsize),
      List.drop_append_of_le_length hlength]
  · obtain ⟨rfl,rfl⟩ := Prod.mk.inj (Option.some.inj (hread.symm.trans h))
    rw [hbuffer,List.append_assoc,readFrame_whole hsize]

theorem readFrame_ended (h : readFrame lib buffer false = none) :
    readFrame lib buffer true = some (.error .connection,[]) := by
  unfold readFrame at h ⊢
  dsimp only at h ⊢
  split at h
  next hheader => exact if_pos hheader
  next hheader =>
    rw [if_neg hheader]
    split at h
    · exact nomatch h
    next hsize =>
      rw [if_neg hsize]
      split at h
      next hshort => exact if_pos hshort
      next => exact nomatch h

/-! The loop goes from frame to frame. -/

theorem feedLoop_none (h : readFrame lib buffer false = none) : feedLoop lib buffer frames = (.ok frames,buffer) := by
  unfold readFrame at h
  dsimp only at h
  unfold feedLoop
  split at h
  next hheader => exact if_pos hheader
  next hheader =>
    rw [if_neg hheader]
    dsimp only
    split at h
    · exact nomatch h
    next hsize =>
      rw [if_neg hsize]
      split at h
      next hshort => exact if_pos hshort
      next => exact nomatch h

theorem feedLoop_whole (hsize : payload.length ≤ frameMaxBytes) (rest : Bytes) :
    feedLoop lib (framed payload ++ rest) frames =
      match decodePayload lib payload with
      | .error f => (.error f,rest)
      | .ok value => feedLoop lib rest (frames ++ [value]) := by
  have hlength := length_framed payload
  have htake : (framed payload ++ rest).take 4 = beBytes 4 payload.length := by
    rw [framed,List.append_assoc]
    exact List.take_left' (length_beBytes _ _)
  have hdrop : (framed payload ++ rest).drop 4 = payload ++ rest := by
    rw [framed,List.append_assoc]
    exact List.drop_left' (length_beBytes _ _)
  have hrest : (framed payload ++ rest).drop (4 + payload.length) = rest := List.drop_left' hlength
  rw [feedLoop]
  dsimp only
  rw [htake,framed_size hsize,hdrop,hrest,List.take_left,List.length_append,if_neg (by omega),if_neg (by omega),
    if_neg (by omega)]

theorem feedLoop_oversize (hlength : 4 ≤ buffer.length) (hsize : frameMaxBytes < beNat (buffer.take 4)) :
    feedLoop lib buffer frames = (.error (.service .payloadTooLarge),buffer) := by
  rw [feedLoop]
  dsimp only
  rw [if_neg (not_lt.mpr hlength),if_pos hsize]

theorem feedLoop_ok (h : readFrame lib buffer false = some (.ok value,rest)) :
    feedLoop lib buffer frames = feedLoop lib rest (frames ++ [value]) := by
  rcases readFrame_cases lib buffer with hnone | ⟨_,_,hread⟩ | ⟨payload,tail,hbuffer,hsize,hread⟩
  · exact nomatch hnone.symm.trans h
  · exact nomatch (Prod.mk.inj (Option.some.inj (hread.symm.trans h))).1
  · obtain ⟨hdecode,rfl⟩ := Prod.mk.inj (Option.some.inj (hread.symm.trans h))
    rw [hbuffer,feedLoop_whole hsize,hdecode]

theorem feedLoop_error (h : readFrame lib buffer false = some (.error f,rest)) :
    (feedLoop lib buffer frames).1 = .error f := by
  rcases readFrame_cases lib buffer with hnone | ⟨hlength,hsize,hread⟩ | ⟨payload,tail,hbuffer,hsize,hread⟩
  · exact nomatch hnone.symm.trans h
  · have herror := (Prod.mk.inj (Option.some.inj (hread.symm.trans h))).1
    rw [feedLoop_oversize hlength hsize,← Except.error.inj herror]
  · obtain ⟨hdecode,_⟩ := Prod.mk.inj (Option.some.inj (hread.symm.trans h))
    rw [hbuffer,feedLoop_whole hsize,hdecode]

/-- Induction on the frames at the head of the bytes. -/
theorem frames_induction {P : Bytes → Prop} (lib : Library)
    (none : ∀ buffer, readFrame lib buffer false = .none → P buffer)
    (error : ∀ buffer f rest, readFrame lib buffer false = some (.error f,rest) → P buffer)
    (ok : ∀ buffer value rest, readFrame lib buffer false = some (.ok value,rest) → P rest → P buffer)
    (buffer : Bytes) : P buffer := by
  induction hn : buffer.length using Nat.strong_induction_on generalizing buffer with
  | _ n ih =>
    cases hread : readFrame lib buffer false with
    | none => exact none buffer hread
    | some result =>
      obtain ⟨outcome,rest⟩ := result
      cases outcome with
      | error f => exact error buffer f rest hread
      | ok value =>
        have hshorter := readFrame_shorter hread
        exact ok buffer value rest hread (ih rest.length (by omega) rest rfl)

/-- The objects that were there before come first. -/
theorem feedLoop_frames (frames : List Json.Object) (buffer : Bytes) : feedLoop lib buffer frames =
    ((feedLoop lib buffer []).1.map (frames ++ ·),(feedLoop lib buffer []).2) := by
  induction buffer using frames_induction lib generalizing frames with
  | none buffer h => simp [feedLoop_none h,Except.map]
  | error buffer f rest h =>
    rcases readFrame_cases lib buffer with hnone | ⟨hlength,hsize,_⟩ | ⟨payload,tail,hbuffer,hsize,hread⟩
    · exact nomatch hnone.symm.trans h
    · simp only [feedLoop_oversize hlength hsize,Except.map]
    · have hdecode := (Prod.mk.inj (Option.some.inj (hread.symm.trans h))).1
      simp only [hbuffer,feedLoop_whole hsize,hdecode,Except.map]
  | ok buffer value rest h ih =>
    rw [feedLoop_ok h,feedLoop_ok h,ih (frames ++ [value]),ih ([] ++ [value])]
    cases (feedLoop lib rest []).1 <;> simp [Except.map]

/-- What is left after the loop has no whole frame. -/
theorem feedLoop_rest (h : feedLoop lib buffer frames = (.ok values,rest)) : readFrame lib rest false = none := by
  induction buffer using frames_induction lib generalizing frames with
  | none buffer hread =>
    rw [feedLoop_none hread] at h
    obtain ⟨_,rfl⟩ := Prod.mk.inj h
    exact hread
  | error buffer f _ hread =>
    have herror : (feedLoop lib buffer frames).1 = .error f := feedLoop_error hread
    rw [h] at herror
    exact nomatch herror
  | ok buffer value _ hread ih =>
    rw [feedLoop_ok hread] at h
    exact ih h

/-- The loop may stop between two chunks. -/
theorem feedLoop_append (h : feedLoop lib buffer frames = (.ok values,rest)) (more : Bytes) :
    feedLoop lib (buffer ++ more) frames = feedLoop lib (rest ++ more) values := by
  induction buffer using frames_induction lib generalizing frames with
  | none buffer hread =>
    rw [feedLoop_none hread] at h
    obtain ⟨hvalues,rfl⟩ := Prod.mk.inj h
    rw [Except.ok.inj hvalues]
  | error buffer f _ hread =>
    have herror : (feedLoop lib buffer frames).1 = .error f := feedLoop_error hread
    rw [h] at herror
    exact nomatch herror
  | ok buffer value _ hread ih =>
    rw [feedLoop_ok hread] at h
    rw [feedLoop_ok (readFrame_append hread more false)]
    exact ih h

theorem feedLoop_append_error (h : (feedLoop lib buffer frames).1 = .error f) (more : Bytes) :
    (feedLoop lib (buffer ++ more) frames).1 = .error f := by
  induction buffer using frames_induction lib generalizing frames with
  | none buffer hread =>
    rw [feedLoop_none hread] at h
    exact nomatch h
  | error buffer f' _ hread =>
    rw [feedLoop_error hread] at h
    rw [feedLoop_error (readFrame_append hread more false),Except.error.inj h]
  | ok buffer value _ hread ih =>
    rw [feedLoop_ok hread] at h
    rw [feedLoop_ok (readFrame_append hread more false)]
    exact ih h

/-! Reading goes from frame to frame too. -/

theorem readAll_none (h : readFrame lib buffer false = none) : readAll lib buffer = [] := by
  rw [readAll]
  split
  next hread => exact nomatch hread.symm.trans (readFrame_ended h)
  all_goals rfl

theorem readAll_error (h : readFrame lib buffer false = some (.error f,rest)) : readAll lib buffer = [] := by
  have hended := readFrame_append h [] true
  rw [List.append_nil] at hended
  rw [readAll]
  split
  next hread => exact nomatch hread.symm.trans hended
  all_goals rfl

theorem readAll_ok (h : readFrame lib buffer false = some (.ok value,rest)) :
    readAll lib buffer = value :: readAll lib rest := by
  have hended := readFrame_append h [] true
  rw [List.append_nil,List.append_nil] at hended
  rw [readAll]
  split
  next hread =>
    obtain ⟨hvalue,rfl⟩ := Prod.mk.inj (Option.some.inj (hended.symm.trans hread))
    rw [Except.ok.inj hvalue]
  next hread => exact nomatch hended.symm.trans hread
  next hread => exact nomatch hended.symm.trans hread

/-- The objects of the loop are those that are read. -/
theorem readAll_append (h : feedLoop lib buffer frames = (.ok values,rest)) (more : Bytes) :
    frames ++ readAll lib (buffer ++ more) = values ++ readAll lib (rest ++ more) := by
  induction buffer using frames_induction lib generalizing frames with
  | none buffer hread =>
    rw [feedLoop_none hread] at h
    obtain ⟨hvalues,rfl⟩ := Prod.mk.inj h
    rw [Except.ok.inj hvalues]
  | error buffer f _ hread =>
    have herror : (feedLoop lib buffer frames).1 = .error f := feedLoop_error hread
    rw [h] at herror
    exact nomatch herror
  | ok buffer value _ hread ih =>
    rw [feedLoop_ok hread] at h
    rw [readAll_ok (readFrame_append hread more false),← ih h,List.append_assoc]
    rfl

/-! All chunks. -/

namespace FrameDecoder

theorem feed_eq (d : FrameDecoder) (data : Bytes) : d.feed lib data =
    ((feedLoop lib (d.buffer ++ data) []).1,⟨(feedLoop lib (d.buffer ++ data) []).2⟩) := rfl

/-- Nothing goes wrong when nothing goes wrong with all bytes in one piece. -/
theorem feedAll_ok {d : FrameDecoder} {chunks : List Bytes} (hd : readFrame lib d.buffer false = none)
    (h : feedLoop lib (d.buffer ++ chunks.flatten) [] = (.ok values,rest)) :
    d.feedAll lib chunks = { objects := values, failure := none, decoder := ⟨rest⟩ } := by
  induction chunks generalizing d values with
  | nil =>
    rw [List.flatten_nil,List.append_nil,feedLoop_none hd] at h
    obtain ⟨hvalues,rfl⟩ := Prod.mk.inj h
    rw [← Except.ok.inj hvalues]
    rfl
  | cons data chunks ih =>
    rw [List.flatten_cons,← List.append_assoc] at h
    rw [feedAll,feed_eq]
    cases hloop : feedLoop lib (d.buffer ++ data) [] with
    | mk outcome buffer =>
      cases outcome with
      | error f =>
        have herror := feedLoop_append_error (congrArg Prod.fst hloop) chunks.flatten
        rw [h] at herror
        exact nomatch herror
      | ok decoded =>
        rw [feedLoop_append hloop,feedLoop_frames] at h
        cases hlater : feedLoop lib (buffer ++ chunks.flatten) [] with
        | mk later tail =>
          rw [hlater] at h
          cases later with
          | error f => exact nomatch h
          | ok later =>
            obtain ⟨hvalues,rfl⟩ := Prod.mk.inj h
            have hrest := ih (d := ⟨buffer⟩) (feedLoop_rest hloop) hlater
            have hsame : decoded ++ later = values := Except.ok.inj hvalues
            simp only [hrest,hsame]

/-- Otherwise the error is the same, and no more is delivered than what is read. -/
theorem feedAll_error {d : FrameDecoder} {chunks : List Bytes} (hd : readFrame lib d.buffer false = none)
    (h : (feedLoop lib (d.buffer ++ chunks.flatten) []).1 = .error f) : (d.feedAll lib chunks).failure = some f ∧
      (d.feedAll lib chunks).objects <+: readAll lib (d.buffer ++ chunks.flatten) := by
  induction chunks generalizing d with
  | nil =>
    rw [List.flatten_nil,List.append_nil,feedLoop_none hd] at h
    exact nomatch h
  | cons data chunks ih =>
    rw [List.flatten_cons,← List.append_assoc] at h ⊢
    rw [feedAll,feed_eq]
    cases hloop : feedLoop lib (d.buffer ++ data) [] with
    | mk outcome buffer =>
      cases outcome with
      | error f' =>
        have herror := feedLoop_append_error (congrArg Prod.fst hloop) chunks.flatten
        rw [h] at herror
        rw [Except.error.inj herror]
        exact ⟨rfl,List.nil_prefix⟩
      | ok decoded =>
        have hread := readAll_append hloop chunks.flatten
        rw [List.nil_append] at hread
        rw [feedLoop_append hloop,feedLoop_frames] at h
        have hlater : (feedLoop lib (buffer ++ chunks.flatten) []).1 = .error f := by
          cases hfirst : (feedLoop lib (buffer ++ chunks.flatten) []).1 with
          | error f' =>
            rw [hfirst] at h
            rw [Except.error.inj h]
          | ok later =>
            rw [hfirst] at h
            exact nomatch h
        obtain ⟨hfailure,hobjects⟩ := ih (d := ⟨buffer⟩) (feedLoop_rest hloop) hlater
        refine ⟨hfailure,?_⟩
        rw [hread]
        exact (List.prefix_append_right_inj decoded).mpr hobjects

end FrameDecoder

/-! Malformed frames. -/

/-- What the bytes start with is no frame: its length is too large, or its payload is no object. -/
inductive Malformed (lib : Library) : Bytes → Failure → Prop
  | oversize {bytes : Bytes} (header : 4 ≤ bytes.length) (size : frameMaxBytes < beNat (bytes.take 4)) :
    Malformed lib bytes (.service .payloadTooLarge)
  | payload {payload : Bytes} {f : Failure} (rest : Bytes) (size : payload.length ≤ frameMaxBytes)
    (decode : decodePayload lib payload = .error f) : Malformed lib (framed payload ++ rest) f

theorem malformed_iff : Malformed lib buffer f ↔ ∃ rest, readFrame lib buffer false = some (.error f,rest) := by
  constructor
  · intro h
    cases h with
    | oversize header size => exact ⟨_,readFrame_oversize header size false⟩
    | payload rest size decode => exact ⟨rest,by rw [readFrame_whole size,decode]⟩
  · rintro ⟨rest,h⟩
    rcases readFrame_cases lib buffer with hnone | ⟨hlength,hsize,hread⟩ | ⟨payload,tail,hbuffer,hsize,hread⟩
    · exact nomatch hnone.symm.trans h
    · have herror := (Prod.mk.inj (Option.some.inj (hread.symm.trans h))).1
      rw [← Except.error.inj herror]
      exact .oversize hlength hsize
    · rw [hbuffer]
      exact .payload tail hsize (Prod.mk.inj (Option.some.inj (hread.symm.trans h))).1

/-- Whole frames with objects, of which there is one at least, and a malformed frame after them. -/
def MalformedAfterFrames (lib : Library) (bytes : Bytes) : Prop :=
  ∃ payloads rest f, payloads ≠ [] ∧ (∀ payload ∈ payloads, ∃ value, decodePayload lib payload = .ok value) ∧
    Malformed lib rest f ∧ bytes = framesOf payloads ++ rest

theorem decodePayload_size (h : decodePayload lib payload = .ok value) : payload.length ≤ frameMaxBytes := by
  unfold decodePayload at h
  split at h
  · exact nomatch h
  next hsize => exact not_lt.mp hsize

/-- Frames are decoded up to what follows them. -/
theorem feedLoop_framesOf (frames : List Json.Object) {payloads : List Bytes}
    (hdecode : ∀ payload ∈ payloads, ∃ value, decodePayload lib payload = .ok value) (rest : Bytes) : ∃ values, feedLoop lib (framesOf payloads ++ rest) frames = feedLoop lib rest (frames ++ values) ∧
      readAll lib (framesOf payloads ++ rest) = values ++ readAll lib rest ∧ values.length = payloads.length := by
  induction payloads generalizing frames with
  | nil => exact ⟨[],by rw [List.append_nil]; rfl,rfl,rfl⟩
  | cons payload payloads ih =>
    obtain ⟨value,hvalue⟩ := hdecode payload List.mem_cons_self
    obtain ⟨values,hloop,hread,hlength⟩ := ih (frames ++ [value]) fun p hp => hdecode p (List.mem_cons_of_mem _ hp)
    have hsplit : framesOf (payload :: payloads) ++ rest = framed payload ++ (framesOf payloads ++ rest) := by
      rw [framesOf,List.flatMap_cons,List.append_assoc]
      rfl
    have hhead : readFrame lib (framed payload ++ (framesOf payloads ++ rest)) false =
        some (.ok value,framesOf payloads ++ rest) := by
      rw [readFrame_whole (decodePayload_size hvalue),hvalue]
    refine ⟨value :: values,?_,?_,congrArg Nat.succ hlength⟩
    · rw [hsplit,feedLoop_ok hhead,hloop,List.append_assoc]
      rfl
    · rw [hsplit,readAll_ok hhead,hread]
      rfl

/-- The loop fails at the first malformed frame, after the frames that are read. -/
theorem malformed_of_feedLoop (h : (feedLoop lib buffer frames).1 = .error f) : ∃ payloads rest,
    (∀ payload ∈ payloads, ∃ value, decodePayload lib payload = .ok value) ∧ Malformed lib rest f ∧
      buffer = framesOf payloads ++ rest ∧ payloads.length = (readAll lib buffer).length := by
  induction buffer using frames_induction lib generalizing frames with
  | none buffer hread =>
    rw [feedLoop_none hread] at h
    exact nomatch h
  | error buffer f' rest hread =>
    rw [feedLoop_error hread] at h
    rw [Except.error.inj h] at hread
    refine ⟨[],buffer,fun _ hp => absurd hp List.not_mem_nil,malformed_iff.mpr ⟨rest,hread⟩,rfl,?_⟩
    rw [readAll_error hread]
    rfl
  | ok buffer value rest hread ih =>
    rw [feedLoop_ok hread] at h
    obtain ⟨payloads,tail,hdecode,hmalformed,rfl,hlength⟩ := ih h
    rcases readFrame_cases lib buffer with hnone | ⟨_,_,hread'⟩ | ⟨payload,_,hbuffer,hsize,hread'⟩
    · exact nomatch hnone.symm.trans hread
    · exact nomatch (Prod.mk.inj (Option.some.inj (hread'.symm.trans hread))).1
    · obtain ⟨hvalue,rfl⟩ := Prod.mk.inj (Option.some.inj (hread'.symm.trans hread))
      refine ⟨payload :: payloads,tail,?_,hmalformed,?_,?_⟩
      · intro p hp
        rcases List.mem_cons.mp hp with rfl | hp
        · exact ⟨value,hvalue⟩
        · exact hdecode p hp
      · rw [hbuffer,framesOf,framesOf,List.flatMap_cons,List.append_assoc]
      · rw [readAll_ok hread,List.length_cons,List.length_cons,hlength]

namespace FrameDecoder

/-- However the bytes are cut, a fresh decoder delivers the same objects and the same error, and the objects are those
that successive reads return. -/
def Alike (lib : Library) (bytes : Bytes) : Prop :=
  (∀ chunks chunks' : List Bytes, chunks.flatten = bytes → chunks'.flatten = bytes →
    (({} : FrameDecoder).feedAll lib chunks).objects = (({} : FrameDecoder).feedAll lib chunks').objects ∧
    (({} : FrameDecoder).feedAll lib chunks).failure = (({} : FrameDecoder).feedAll lib chunks').failure) ∧
  ∀ chunks : List Bytes, chunks.flatten = bytes → (({} : FrameDecoder).feedAll lib chunks).objects = readAll lib bytes

theorem fresh_idle (lib : Library) : readFrame lib ({} : FrameDecoder).buffer false = none := rfl

/-- The chunks do not matter unless a malformed frame comes after another frame. -/
theorem alike_iff (lib : Library) (bytes : Bytes) : Alike lib bytes ↔ ¬ MalformedAfterFrames lib bytes := by
  constructor
  · rintro ⟨_,hread⟩ ⟨payloads,rest,f,hsome,hdecode,hmalformed,rfl⟩
    obtain ⟨tail,herror⟩ := malformed_iff.mp hmalformed
    obtain ⟨values,hloop,hall,hlength⟩ := feedLoop_framesOf [] hdecode rest
    -- all bytes in one chunk
    have hwhole : (({} : FrameDecoder).feedAll lib [framesOf payloads ++ rest]).objects = [] := by
      have hfails : (feedLoop lib (framesOf payloads ++ rest) []).1 = .error f := by
        rw [hloop]
        exact feedLoop_error herror
      have hfeed : (({} : FrameDecoder).feed lib (framesOf payloads ++ rest)).1 = .error f := hfails
      unfold feedAll
      split
      next => rfl
      next hok =>
        rw [hok] at hfeed
        exact nomatch hfeed
    have hvalues := hread [framesOf payloads ++ rest] (by rw [List.flatten_cons,List.flatten_nil,List.append_nil])
    rw [hwhole,hall,readAll_error herror,List.append_nil] at hvalues
    rw [← hvalues] at hlength
    exact hsome (List.length_eq_zero_iff.mp hlength.symm)
  · intro hnot
    have hsame : ∃ failure, ∀ chunks : List Bytes, chunks.flatten = bytes →
        (({} : FrameDecoder).feedAll lib chunks).objects = readAll lib bytes ∧
        (({} : FrameDecoder).feedAll lib chunks).failure = failure := by
      cases hloop : feedLoop lib bytes [] with
      | mk outcome rest =>
        cases outcome with
        | ok values =>
          have hread := readAll_append hloop []
          rw [List.append_nil,List.append_nil,readAll_none (feedLoop_rest hloop),List.append_nil,List.nil_append] at hread
          refine ⟨none,?_⟩
          rintro chunks rfl
          rw [feedAll_ok (fresh_idle lib) hloop,hread]
          exact ⟨rfl,rfl⟩
        | error f =>
          obtain ⟨payloads,tail,hdecode,hmalformed,hbytes,hlength⟩ := malformed_of_feedLoop (congrArg Prod.fst hloop)
          have hnone : readAll lib bytes = [] := by
            by_contra hsome
            refine hnot ⟨payloads,tail,f,?_,hdecode,hmalformed,hbytes⟩
            rintro rfl
            exact hsome (List.length_eq_zero_iff.mp hlength.symm)
          refine ⟨some f,?_⟩
          rintro chunks rfl
          obtain ⟨hfailure,hobjects⟩ := feedAll_error (d := {}) (fresh_idle lib) (congrArg Prod.fst hloop)
          rw [List.nil_append,hnone] at hobjects
          exact ⟨(List.prefix_nil.mp hobjects).trans hnone.symm,hfailure⟩
    obtain ⟨failure,hsame⟩ := hsame
    refine ⟨?_,fun chunks h => (hsame chunks h).1⟩
    intro chunks chunks' h h'
    exact ⟨(hsame chunks h).1.trans (hsame chunks' h').1.symm,(hsame chunks h).2.trans (hsame chunks' h').2.symm⟩

/-- A library that knows one object only, the empty one. -/
def braces : Library where
  dumps value := if value.isEmpty then some [123, 125] else none
  loads bytes := if bytes = [123, 125] then .ok (.obj []) else .error .notJson
  claimsText _ := ""
  readClaims _ := .error .notJson
  sign claims := claims

/-- An empty object, and a header that is too large, in one chunk and in two. -/
theorem alike_fails : (({} : FrameDecoder).feedAll braces [framed [123, 125] ++ [255, 255, 255, 255]]).objects = [] ∧
    (({} : FrameDecoder).feedAll braces [framed [123, 125], [255, 255, 255, 255]]).objects = [[]] ∧
    ¬ Alike braces (framed [123, 125] ++ [255, 255, 255, 255]) := by
  have hpayload : ([123, 125] : Bytes).length ≤ frameMaxBytes := by decide
  have hdecode : decodePayload braces [123, 125] = .ok [] := rfl
  have hheader : frameMaxBytes < beNat (([255, 255, 255, 255] : Bytes).take 4) := by decide
  have hbad : ∀ frames, feedLoop braces [255, 255, 255, 255] frames =
      (.error (.service .payloadTooLarge),[255, 255, 255, 255]) := fun _ => feedLoop_oversize (le_refl 4) hheader
  have hone : (({} : FrameDecoder).feedAll braces [framed [123, 125] ++ [255, 255, 255, 255]]).objects = [] := by
    simp only [feedAll,feed_eq,List.nil_append,feedLoop_whole hpayload,hdecode,hbad]
  have hfirst : feedLoop braces (framed [123, 125]) [] = (.ok [[]],[]) := by
    rw [← List.append_nil (framed [123, 125]),feedLoop_whole hpayload,hdecode]
    exact feedLoop_none rfl
  have htwo : (({} : FrameDecoder).feedAll braces [framed [123, 125], [255, 255, 255, 255]]).objects = [[]] := by
    simp only [feedAll,feed_eq,List.nil_append,hfirst,hbad,List.append_nil]
  refine ⟨hone,htwo,fun h => ?_⟩
  have hsame := (h.1 [framed [123, 125] ++ [255, 255, 255, 255]] [framed [123, 125], [255, 255, 255, 255]] (by simp)
    (by simp)).1
  rw [hone,htwo] at hsame
  exact nomatch hsame

end FrameDecoder

/-! What is encoded is decoded. -/

/-- `json.loads` is a left inverse of `json.dumps` on finite objects. -/
def Library.LoadsDumps (lib : Library) : Prop := ∀ (object : Json.Object) (payload : Bytes), distinctNames (.obj object) →
  Json.isFinite (.obj object) → lib.dumps object = some payload →
  ∃ value, lib.loads payload = .ok value ∧ SameJson (.obj object) value

theorem jsonLibrary_loadsDumps (sign : String → String) : (jsonLibrary sign).LoadsDumps := by
  intro object payload hdistinct _ hdumps
  by_cases hintegral : JsonText.integral (.obj object)
  · exact jsonLibrary_frames object payload hdistinct hintegral hdumps
  · have hnone : (jsonLibrary sign).dumps object = none := if_neg hintegral
    exact nomatch hnone.symm.trans hdumps

theorem encodeFrame_framed {object : Json.Object} {bytes : Bytes} (h : encodeFrame lib object = .ok bytes) :
    ∃ payload, lib.dumps object = some payload ∧ payload.length ≤ frameMaxBytes ∧ bytes = framed payload := by
  unfold encodeFrame at h
  cases hdumps : lib.dumps object with
  | none =>
    rw [hdumps] at h
    exact nomatch h
  | some payload =>
    rw [hdumps] at h
    dsimp only at h
    split at h
    · exact nomatch h
    next hsize => exact ⟨payload,rfl,not_lt.mp hsize,(Except.ok.inj h).symm⟩

/-- The frame of a finite object is decoded to the object. -/
theorem decodePayload_dumps (hlib : lib.LoadsDumps) {object : Json.Object} (hdistinct : distinctNames (.obj object))
    (hfinite : Json.isFinite (.obj object)) (hdumps : lib.dumps object = some payload)
    (hsize : payload.length ≤ frameMaxBytes) :
    ∃ decoded, decodePayload lib payload = .ok decoded ∧ SameJson (.obj object) (.obj decoded) := by
  obtain ⟨value,hloads,hsame⟩ := hlib object payload hdistinct hfinite hdumps
  obtain ⟨members,rfl,_⟩ := sameFields_of_same hdistinct hsame
  refine ⟨members,?_,hsame⟩
  unfold decodePayload
  rw [if_neg (not_lt.mpr hsize),hloads]

theorem feedLoop_encoded (frames : List Json.Object) (hlib : lib.LoadsDumps) {objects : List Json.Object} {encoded : List Bytes}
    (hobjects : ∀ object ∈ objects, distinctNames (.obj object) ∧ Json.isFinite (.obj object))
    (hencode : List.Forall₂ (fun object bytes => encodeFrame lib object = .ok bytes) objects encoded) :
    ∃ decoded, feedLoop lib encoded.flatten frames = (.ok (frames ++ decoded),[]) ∧
      List.Forall₂ (fun object value => SameJson (.obj object) (.obj value)) objects decoded := by
  induction hencode generalizing frames with
  | nil => exact ⟨[],by rw [List.append_nil]; exact feedLoop_none rfl,.nil⟩
  | @cons object bytes objects encoded h _ ih =>
    obtain ⟨hdistinct,hfinite⟩ := hobjects object List.mem_cons_self
    obtain ⟨payload,hdumps,hsize,rfl⟩ := encodeFrame_framed h
    obtain ⟨value,hdecode,hsame⟩ := decodePayload_dumps hlib hdistinct hfinite hdumps hsize
    obtain ⟨decoded,hloop,hall⟩ := ih (frames ++ [value]) fun o ho => hobjects o (List.mem_cons_of_mem _ ho)
    refine ⟨value :: decoded,?_,.cons hsame hall⟩
    rw [List.flatten_cons,feedLoop_whole hsize,hdecode]
    dsimp only
    rw [hloop,List.append_assoc]
    rfl

/-- However the frames of some objects are cut, the objects are decoded and nothing is left. -/
theorem FrameDecoder.round_trip (hlib : lib.LoadsDumps) {objects : List Json.Object} {encoded chunks : List Bytes}
    (hobjects : ∀ object ∈ objects, distinctNames (.obj object) ∧ Json.isFinite (.obj object))
    (hencode : List.Forall₂ (fun object bytes => encodeFrame lib object = .ok bytes) objects encoded)
    (hchunks : chunks.flatten = encoded.flatten) :
    ∃ decoded, ({} : FrameDecoder).feedAll lib chunks = { objects := decoded, failure := none, decoder := {} } ∧
      List.Forall₂ (fun object value => SameJson (.obj object) (.obj value)) objects decoded := by
  obtain ⟨decoded,hloop,hall⟩ := feedLoop_encoded [] hlib hobjects hencode
  rw [← hchunks] at hloop
  exact ⟨decoded,feedAll_ok (fresh_idle lib) hloop,hall⟩

/-- Two objects, cut within the header of the first frame. -/
theorem FrameDecoder.round_trip_example : ∃ decoded,
    ({} : FrameDecoder).feedAll (jsonLibrary id)
      [(framed (utf8 (sortedText [("a",.int 1)])) ++ framed (utf8 (sortedText [("b",.int 2)]))).take 2,
        (framed (utf8 (sortedText [("a",.int 1)])) ++ framed (utf8 (sortedText [("b",.int 2)]))).drop 2] =
      { objects := decoded, failure := none, decoder := {} } ∧
    List.Forall₂ (fun object value => SameJson (.obj object) (.obj value)) [[("a",.int 1)], [("b",.int 2)]] decoded := by
  have hframe : ∀ object : Json.Object, JsonText.integral (.obj object) → (sortedText object).length ≤ 100 →
      encodeFrame (jsonLibrary id) object = .ok (framed (utf8 (sortedText object))) := by
    intro object hintegral hlength
    have hsize := length_utf8_le (sortedText object)
    exact encodeFrame_ok (jsonLibrary_dumps hintegral) (by unfold frameMaxBytes; omega)
  have hencode : List.Forall₂ (fun object bytes => encodeFrame (jsonLibrary id) object = .ok bytes) _ _ :=
    .cons (hframe [("a",.int 1)] (by decide) (by decide))
    (.cons (hframe [("b",.int 2)] (by decide) (by decide)) .nil)
  apply round_trip (jsonLibrary_loadsDumps id) (by decide) hencode
  rw [List.flatten_cons,List.flatten_cons,List.flatten_nil,List.append_nil,List.take_append_drop,List.flatten_cons,
    List.flatten_cons,List.flatten_nil,List.append_nil]

end UnixService
end HarnessSdk
