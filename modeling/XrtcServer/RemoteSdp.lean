import XrtcServer.SessionDescription

/-! `PeerConnection::set_remote_sdp`: the lines are told apart by the patterns that occur in them,
and the tracks are put together from the lines of their sources. -/
namespace XrtcServer
namespace Sdp
open XrtcServer.Stream

structure SsrcInfo where
  ssrcId : UInt32
  cname : String := ""
  streamId : String := ""
  trackId : String := ""
  deriving DecidableEq

/-- What follows the colon of a line that has one. -/
def getAttribute (line : Text) : Text :=
  match tokenize line ':' with
  | [_, field] => field
  | _ => []

def parseTransportInfo (td : TransportDescription) (line : Text) : Except Failure TransportDescription :=
  if found line "a=ice-ufrag" then
    let iceUfrag := getAttribute line
    if iceUfrag = [] then .error .error else .ok { td with iceUfrag := String.ofList iceUfrag }
  else if found line "a=ice-pwd" then
    let icePwd := getAttribute line
    if icePwd = [] then .error .error else .ok { td with icePwd := String.ofList icePwd }
  else if found line "a=fingerprint" then
    match tokenize line ' ' with
    | [item, content] => do
      let alg ← substr item 14
      match SSLFingerprint.createUniqueFromRfc4572 (alg.map Char.toLower) content with
      | none => .error .error
      | some fp => return { td with identityFingerprint := some fp }
    | _ => .error .error
  else .ok td

/-- The information on a source, a new one if there is none yet. -/
def updateSsrcInfo (ssrcInfo : List SsrcInfo) (ssrcId : UInt32) (f : SsrcInfo → SsrcInfo) : List SsrcInfo :=
  if ssrcInfo.any (·.ssrcId = ssrcId) then
    ssrcInfo.modify (ssrcInfo.findIdx (·.ssrcId = ssrcId)) f
  else ssrcInfo ++ [f { ssrcId }]

def parseSsrcInfo (ssrcInfo : List SsrcInfo) (line : Text) : Except Failure (List SsrcInfo) :=
  if ¬ found line "a=ssrc:" then .ok ssrcInfo
  else do
    let rest ← substr line 2
    match tokenizeFirst rest ' ' with
    | none => .error .error
    | some (field1, field2) =>
      let ssrcIdS ← substr field1 5
      match fromString ssrcIdS with
      | none => .error .error
      | some ssrcId =>
        match tokenizeFirst field2 ':' with
        | none => .error .error
        | some (attr, value) =>
          if attr = "cname".toList then
            return updateSsrcInfo ssrcInfo ssrcId fun info => { info with cname := String.ofList value }
          else if attr = "msid".toList then
            match split value ' ' with
            | [streamId] =>
              return updateSsrcInfo ssrcInfo ssrcId fun info => { info with streamId := String.ofList streamId }
            | [streamId, trackId] =>
              return updateSsrcInfo ssrcInfo ssrcId fun info =>
                { info with streamId := String.ofList streamId, trackId := String.ofList trackId }
            | _ => .error .error
          else return updateSsrcInfo ssrcInfo ssrcId id

def parseSsrcGroupInfo (ssrcGroups : List SsrcGroup) (line : Text) : Except Failure (List SsrcGroup) :=
  if ¬ found line "a=ssrc-group:" then .ok ssrcGroups
  else do
    let rest ← substr line 2
    match split rest ' ' with
    | field :: ssrc :: fields =>
      let semantics := getAttribute field
      if semantics = [] then .error .error
      else
        match (ssrc :: fields).mapM fromString with
        | none => .error .error
        | some ssrcs => return ssrcGroups ++ [⟨String.ofList semantics, ssrcs⟩]
    | _ => .error .error

/-- The codec in a line that has all the patterns, for a codec that is not known yet. -/
def parseCodecInfo (codecId : ℤ) (patterns : List String) (line : Text) : Except Failure ℤ :=
  if codecId ≠ 0 then .ok codecId
  else if ¬ patterns.all (found line) then .ok codecId
  else do
    let rest ← substr line 2
    match split rest ' ' with
    | field :: _ :: _ =>
      let codeId := getAttribute field
      if codeId = [] then .error .error else return atoi codeId
    | _ => .error .error

def parseFmtpInfo (h264CodecId : ℤ) (line : Text) : Except Failure ℤ :=
  parseCodecInfo h264CodecId ["42e01f", "level-asymmetry-allowed=1", "packetization-mode=1"] line

def parseRtpmapInfo (rtxCodecId : ℤ) (line : Text) : Except Failure ℤ :=
  parseCodecInfo rtxCodecId ["rtx/90000"] line

/-- A source goes to the track of its id, which is a new one if there is none yet. -/
def addToTrack (tracks : List StreamParams) (info : SsrcInfo) : List StreamParams :=
  let join (track : StreamParams) : StreamParams :=
    { track with cname := info.cname, streamId := info.streamId, ssrcs := track.ssrcs ++ [info.ssrcId] }
  if tracks.any (·.id = info.trackId) then
    tracks.modify (tracks.findIdx (·.id = info.trackId)) join
  else tracks ++ [join ⟨info.trackId, [], [], "", ""⟩]

def createTrackFromSsrcInfo (ssrcInfos : List SsrcInfo) : List StreamParams := ssrcInfos.foldl addToTrack []

/-- A group goes to every track that has its first source. -/
def addGroup (tracks : List StreamParams) (group : SsrcGroup) : List StreamParams :=
  match group.ssrcs with
  | [] => tracks
  | ssrc :: _ =>
    tracks.map fun track => if ssrc ∈ track.ssrcs then { track with ssrcGroups := track.ssrcGroups ++ [group] } else track

/-- What is read for one of the media. -/
structure MediaState where
  td : TransportDescription := {}
  ssrcInfo : List SsrcInfo := []
  existPushSource : Bool := false

/-- The variables of `set_remote_sdp`, with the fields of the peer connection that it sets. -/
structure ParseState where
  mediaType : Text := []
  audio : MediaState := {}
  video : MediaState := {}
  videoSsrcGroups : List SsrcGroup := []
  groups : List ContentGroup := []
  h264CodecId : ℤ := 0
  rtxCodecId : ℤ := 0

namespace ParseState

/-- A line that has `m=` in it starts the lines of a medium. -/
def parseMedia (s : ParseState) (field : Text) : Except Failure ParseState :=
  if found field "m=group:BUNDLE" then
    match split field ' ' with
    | _ :: item :: items =>
      let answerBundle := (item :: items).foldl (fun group name => group.addContentName (String.ofList name)) ⟨"BUNDLE", []⟩
      .ok { s with groups := s.groups ++ [answerBundle] }
    | _ => .ok s
  else if found field "m=" then
    match split field ' ' with
    | item :: _ :: _ :: _ => do
      let mediaType ← substr item 2
      if mediaType = "audio".toList then
        return { s with mediaType, audio := { s.audio with td := { s.audio.td with mid := "audio" }, existPushSource := true } }
      else if mediaType = "video".toList then
        return { s with mediaType, video := { s.video with td := { s.video.td with mid := "video" }, existPushSource := true } }
      else return { s with mediaType }
    | _ => .error .error
  else .ok s

def parseSource (media : MediaState) (field : Text) : Except Failure MediaState := do
  let td ← parseTransportInfo media.td field
  let ssrcInfo ← parseSsrcInfo media.ssrcInfo field
  return { media with td, ssrcInfo }

/-- The lines of a medium, and the codecs of the video. -/
def parseAttribute (s : ParseState) (field : Text) : Except Failure ParseState :=
  if s.mediaType = "audio".toList then do
    let audio ← parseSource s.audio field
    return { s with audio }
  else if s.mediaType = "video".toList then do
    let video ← parseSource s.video field
    let videoSsrcGroups ← parseSsrcGroupInfo s.videoSsrcGroups field
    let h264CodecId ← parseFmtpInfo s.h264CodecId field
    let rtxCodecId ← if h264CodecId ≠ 0 then parseRtpmapInfo s.rtxCodecId field else .ok s.rtxCodecId
    return { s with video, videoSsrcGroups, h264CodecId, rtxCodecId }
  else .ok s

def parseLine (s : ParseState) (field : Text) : Except Failure ParseState := do
  let s ← s.parseMedia field
  s.parseAttribute field

/-- The remote description. -/
def remoteDesc (s : ParseState) : SessionDescription :=
  let audioTracks := createTrackFromSsrcInfo s.audio.ssrcInfo
  let videoTracks := s.videoSsrcGroups.foldl addGroup (createTrackFromSsrcInfo s.video.ssrcInfo)
  { contents :=
      (if s.audio.existPushSource then [{ kind := .audio, streams := audioTracks }] else []) ++
        if s.video.existPushSource then [{ kind := .video s.h264CodecId s.rtxCodecId, streams := videoTracks }] else []
    contentGroups := s.groups
    transportInfos := [s.audio.td, s.video.td] }

end ParseState

/-- The remote description that a new peer connection has after `set_remote_sdp`. -/
def setRemoteSdp (sdp : Text) : Except Failure SessionDescription :=
  let fields := tokenize sdp '\n'
  if fields = [] then .error .error
  else do
    let isRn := found sdp "\r\n"
    let s ← (fields.map fun field => if isRn then field.dropLast else field).foldlM ParseState.parseLine {}
    return s.remoteDesc

end Sdp
end XrtcServer
