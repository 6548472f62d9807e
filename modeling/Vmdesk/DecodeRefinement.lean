import Vmdesk.DecodeLoop

/-! The decode thread as the network side sees it: its decoder, its counter and its requests for
keyframes. The loop with pictures, view and scaler does nothing else to them. -/
namespace Vmdesk.DecodeLoop
open VideoDecoder (Result Decoded)
open Ffmpeg (Call Platform)

/- A fallback that the callback has made shows at the next call only. -/
inductive SameDecoder : AnyDecoder → VideoDecoder → Prop where
  | ffmpeg (d : FfmpegDecoder) (hardware : Bool) (seen : d.isHardware = true → hardware = true) :
      SameDecoder (.ffmpeg d) (.ffmpeg hardware d.pictures)
  | broken : SameDecoder .broken .broken

structure Abstracts (s : DecodeLoop) (t : DecodeThread) : Prop where
  decoder : SameDecoder s.decoder t.decoder
  hwFailures : t.hwFailures = s.hwFailures
  lastRequest : t.lastRequest = s.lastRequest
  gone : t.phase = .gone ↔ s.phase = .exited

structure Agree (d : AnyDecoder) (v : VideoDecoder) : Prop where
  same : SameDecoder d v
  hardware : d.isHardware = v.isHardware
  pictures : d.picturesDecoded = v.picturesDecoded

inductive Move where
  | decoded (d : Decoded) (now again : Int) (created : Bool)
  | ended

def Move.result : Move → Option Result
  | .decoded d _ _ _ => some d.result
  | .ended => none

def follow (t : DecodeThread × Nat) : Move → Option (DecodeThread × Nat)
  | .decoded d now again created =>
      (t.1.decoded d now again created).map (fun r => (r.1,t.2 + r.2.toNat))
  | .ended => some ({t.1 with phase := .gone},t.2)

section
variable {s u : DecodeLoop} {t : DecodeThread} {c : Call} {now again : Int} {opens : Except Text Unit}

theorem callAgrees (same : SameDecoder s.decoder t.decoder) : ∃ d v,
    t.decoder.decode d = some (v,(s.decoder.decode [] c).2.2) ∧
      d.result = (s.decoder.decode [] c).2.2 ∧ Agree (s.decoder.decode [] c).1 v := by
  generalize s.decoder = left at *
  generalize t.decoder = right at *
  cases same with
  | broken =>
    exact ⟨⟨.fatal,0,false⟩,.broken,rfl,rfl,.broken,rfl,rfl⟩
  | ffmpeg d hardware seen =>
    have made : (AnyDecoder.ffmpeg d).decode [] c =
        (.ffmpeg {d with pictures := d.pictures + c.images.length},c.images,c.result) := by
      simp [AnyDecoder.decode,FfmpegDecoder.decodeExactly]
    rw [made]
    have both : (hardware && !!d.isHardware) = d.isHardware := by
      cases shape : d.isHardware with
      | true => simp [seen shape]
      | false => simp
    refine ⟨⟨c.result,c.images.length,!d.isHardware⟩,.ffmpeg (hardware && !!d.isHardware) _,rfl,rfl,
      .ffmpeg _ _ (fun here => both.trans here),both.symm,rfl⟩

theorem requestAgrees (now again : Int) (last : t.lastRequest = s.lastRequest) : ∃ last asked,
    t.requestKeyframe now again = ({t with lastRequest := last},asked) ∧
    s.requestKeyframe now again =
      {s with lastRequest := last, requests := s.requests + asked.toNat} := by
  unfold DecodeThread.requestKeyframe requestKeyframe
  rw [last]
  split
  · exact ⟨again,true,rfl,rfl⟩
  · exact ⟨s.lastRequest,false,by rw [← last],rfl⟩

theorem fallbackAgrees : ∃ d name, SameDecoder d (VideoDecoder.fallbackToSoftware opens.toBool) ∧
    s.fallbackToSoftware opens = {s with decoder := d, view := {s.view with decoderName := name},
                                         replaced := s.replaced + 1} := by
  unfold fallbackToSoftware software
  cases opens with
  | ok => exact ⟨_,_,.ffmpeg _ _ (fun absurd => by cases absurd),rfl⟩
  | error e => exact ⟨.broken,s.view.decoderName,.broken,rfl⟩

/- Whatever a call comes to, the thread can do what the loop does, with the same answer of the
decoder and the same request. -/
theorem accessUnitRefines (abstracts : Abstracts s t)
    (stepped : s.step (.accessUnit c now again opens) = some u) : ∃ d t' asked,
    t.decoded d now again opens.toBool = some (t',asked) ∧
      d.result = (s.decoder.decode [] c).2.2 ∧ Abstracts u t' ∧
      u.requests = s.requests + asked.toNat := by
  obtain ⟨d,v,made,result,agree⟩ := callAgrees (c := c) abstracts.decoder
  have handled : s.phase = .waiting ∧ u = (s.decoded c).handle now again opens
      (s.decoder.decode [] c).2.2 := by
    simp only [step] at stepped
    split at stepped
    · next waiting => exact ⟨waiting,(Option.some.inj stepped).symm⟩
    · cases stepped
  obtain ⟨waiting,rfl⟩ := handled
  have behind : Abstracts (s.decoded c) {t with phase := .waiting, decoder := v} :=
    ⟨agree.same,abstracts.hwFailures,abstracts.lastRequest,by simp [decoded,waiting]⟩
  obtain ⟨last,asked,asks,asks'⟩ := requestAgrees now again behind.lastRequest
  have hardware : (s.decoded c).decoder.isHardware = v.isHardware := agree.hardware
  have pictures : (s.decoded c).decoder.picturesDecoded = v.picturesDecoded := agree.pictures
  have gone := behind.gone
  refine ⟨d,?_⟩
  unfold DecodeThread.decoded
  rw [made]
  simp only [Option.bind_eq_bind,Option.bind_some,asks]
  cases shape : (s.decoder.decode [] c).2.2 with
  | ok =>
    exact ⟨_,false,rfl,result.trans shape,⟨agree.same,rfl,abstracts.lastRequest,
      by simp [handle]⟩,rfl⟩
  | corrupt =>
    simp only [handle,corrupt,asks',hardware,pictures]
    split
    · rw [← behind.hwFailures]
      split
      · obtain ⟨d,name,same,falls⟩ := fallbackAgrees
        rw [falls]
        exact ⟨_,asked,rfl,result.trans shape,⟨same,rfl,rfl,gone⟩,rfl⟩
      · exact ⟨_,asked,rfl,result.trans shape,⟨agree.same,rfl,rfl,gone⟩,rfl⟩
    · exact ⟨_,asked,rfl,result.trans shape,⟨agree.same,behind.hwFailures,rfl,gone⟩,rfl⟩
  | fatal =>
    simp only [handle,fatal,asks',hardware]
    split
    · obtain ⟨d,name,same,falls⟩ := fallbackAgrees
      rw [falls]
      exact ⟨_,asked,rfl,result.trans shape,⟨same,behind.hwFailures,rfl,gone⟩,rfl⟩
    · cases opens with
      | ok =>
        exact ⟨_,asked,rfl,result.trans shape,⟨.ffmpeg _ _ (fun absurd => by cases absurd),
          behind.hwFailures,rfl,gone⟩,rfl⟩
      | error e =>
        exact ⟨_,asked,rfl,result.trans shape,⟨agree.same,behind.hwFailures,rfl,
          fun _ => rfl,fun _ => rfl⟩,rfl⟩

theorem getFormatSame (same : SameDecoder s.decoder t.decoder) :
    SameDecoder s.decoder.getFormat t.decoder := by
  generalize s.decoder = left at *
  generalize t.decoder = right at *
  cases same with
  | broken => exact .broken
  | ffmpeg d hardware seen =>
    refine .ffmpeg d.getFormat hardware (fun shape => seen ?_)
    simp only [FfmpegDecoder.isHardware,FfmpegDecoder.getFormat,Bool.and_eq_true,
      Bool.not_eq_true',Bool.or_eq_false_iff] at shape ⊢
    exact ⟨shape.1,shape.2.2⟩

theorem stepFollows {l : Label} (abstracts : Abstracts s t) (stepped : s.step l = some u) :
    ∃ ms t', Runs.run follow (t,s.requests) ms = some (t',u.requests) ∧ Abstracts u t' ∧
      u.results = s.results ++ ms.filterMap Move.result := by
  cases stepCases stepped with
  | accessUnit c now again opens _ waiting handles =>
    obtain ⟨d,t',asked,done,result,abstracts,requests⟩ := accessUnitRefines abstracts stepped
    refine ⟨[.decoded d now again opens.toBool],t',?_,abstracts,?_⟩
    · simp [Runs.run,follow,done,requests]
    · simp [(handleKeeps handles).results,decoded,Move.result,result]
  | scale pixels image rest frame drawing =>
    refine ⟨[],t,by simp [Runs.run],⟨?_,?_,?_,?_⟩,by simp⟩
    · simpa using abstracts.decoder
    · simpa using abstracts.hwFailures
    · simpa using abstracts.lastRequest
    · simpa using abstracts.gone
  | drawn name drawing =>
    refine ⟨[],t,rfl,⟨abstracts.decoder,abstracts.hwFailures,abstracts.lastRequest,?_⟩,by simp⟩
    simpa [drawing] using abstracts.gone
  | inputClosed waiting =>
    refine ⟨[.ended],{t with phase := .gone},rfl,?_,by simp [Move.result]⟩
    exact ⟨abstracts.decoder,abstracts.hwFailures,abstracts.lastRequest,by simp⟩
  | getFormat running =>
    exact ⟨[],t,rfl,⟨getFormatSame abstracts.decoder,abstracts.hwFailures,abstracts.lastRequest,
      abstracts.gone⟩,by simp⟩
  | resized w h =>
    exact ⟨[],t,rfl,⟨abstracts.decoder,abstracts.hwFailures,abstracts.lastRequest,
      abstracts.gone⟩,by simp⟩

theorem runFollows {ls : List Label} (abstracts : Abstracts s t)
    (reached : Runs.run step s ls = some u) :
    ∃ ms t', Runs.run follow (t,s.requests) ms = some (t',u.requests) ∧ Abstracts u t' ∧
      u.results = s.results ++ ms.filterMap Move.result := by
  induction ls generalizing s t with
  | nil =>
    cases Option.some.inj reached
    exact ⟨[],t,rfl,abstracts,by simp⟩
  | cons l ls ih =>
    obtain ⟨n,first,rest⟩ := Option.bind_eq_some_iff.mp reached
    obtain ⟨ms,t',here,abstracts,results⟩ := stepFollows abstracts first
    obtain ⟨more,t'',later,abstracts,after⟩ := ih abstracts rest
    refine ⟨ms ++ more,t'',?_,abstracts,?_⟩
    · simp [Runs.runAppend,here,later]
    · simp [after,results]
end

theorem initialAbstracts (platform : Platform) (opens : Option Text → Except Text Unit)
    (preference : HwPreference) (now : Int) : ∃ decoder,
    Abstracts (initial platform opens preference now) (.initial decoder now) ∧
      (initial platform opens preference now).requests = 0 ∧
      (initial platform opens preference now).results = [] := by
  unfold initial
  cases FfmpegDecoder.new platform opens preference with
  | ok d =>
    refine ⟨some (.ffmpeg d.isHardware d.pictures),⟨.ffmpeg d _ id,rfl,rfl,?_⟩,rfl,rfl⟩
    simp [DecodeThread.initial]
  | error e => exact ⟨none,⟨.broken,rfl,rfl,fun _ => rfl,fun _ => rfl⟩,rfl,rfl⟩

theorem threadFollows {platform : Platform} {opens : Option Text → Except Text Unit}
    {preference : HwPreference} {now : Int} {ls : List Label} {u : DecodeLoop}
    (reached : Runs.run step (initial platform opens preference now) ls = some u) :
    ∃ decoder ms t, Runs.run follow (.initial decoder now,0) ms = some (t,u.requests) ∧
      Abstracts u t ∧ u.results = ms.filterMap Move.result := by
  obtain ⟨decoder,abstracts,requests,results⟩ := initialAbstracts platform opens preference now
  obtain ⟨ms,t,run,abstracts,made⟩ := runFollows abstracts reached
  rw [requests] at run
  rw [results] at made
  exact ⟨decoder,ms,t,run,abstracts,made⟩

end Vmdesk.DecodeLoop
