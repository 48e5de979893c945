import XrtcServer.RtcStreamManager
import XrtcServer.StringEncode

/-! Session descriptions and their text. Each line is followed by the end of a line. -/
namespace XrtcServer
namespace Sdp
open XrtcServer.Stream

inductive MediaType
  | audio
  | video
  deriving DecidableEq

def MediaType.mid : MediaType → String
  | .audio => "audio"
  | .video => "video"

inductive RtpDirection
  | sendRecv
  | sendOnly
  | recvOnly
  | inactive
  deriving DecidableEq

inductive ConnectionRole
  | none
  | active
  | passive
  | actpass
  | holdconn
  deriving DecidableEq

structure FeedbackParam where
  id : String
  param : String := ""

/-- `channels` is for audio. `codecParam` is in the order of its keys. -/
structure CodecInfo where
  id : ℤ
  name : String
  samplerate : ℕ
  channels : ℕ := 0
  feedbackParam : List FeedbackParam := []
  codecParam : List (String × String) := []

/-- `host` is the address as a URI writes it. -/
structure Candidate where
  foundation : String
  component : ℤ
  protocol : String
  priority : UInt32
  host : String
  port : ℤ
  type : String
  deriving DecidableEq

/-- The codecs of a content are those that its constructor makes. -/
inductive MediaKind
  | audio
  | video (h264CodecId rtxCodecId : ℤ)
  deriving DecidableEq

namespace MediaKind

def type : MediaKind → MediaType
  | audio => .audio
  | video _ _ => .video

def codecs : MediaKind → List CodecInfo
  | audio =>
    [{ id := 111, name := "opus", samplerate := 48000, channels := 2, feedbackParam := [⟨"transport-cc", ""⟩],
       codecParam := [("minptime", "10"), ("useinbandfec", "1")] }]
  | video h264CodecId rtxCodecId =>
    [{ id := h264CodecId, name := "H264", samplerate := 90000,
       feedbackParam := [⟨"goog-remb", ""⟩, ⟨"transport-cc", ""⟩, ⟨"ccm", "fir"⟩, ⟨"nack", ""⟩, ⟨"nack", "pli"⟩],
       codecParam := [("level-asymmetry-allowed", "1"), ("packetization-mode", "1"), ("profile-level-id", "42e01f")] },
     { id := rtxCodecId, name := "rtx", samplerate := 90000,
       codecParam := [("apt", String.ofList (decimal h264CodecId))] }]

end MediaKind

structure MediaContentDescription where
  kind : MediaKind
  direction : RtpDirection := .sendRecv
  rtcpMux : Bool := true
  candidates : List Candidate := []
  streams : List StreamParams := []
  deriving DecidableEq

namespace MediaContentDescription

def mid (content : MediaContentDescription) : String := content.kind.type.mid

def codecs (content : MediaContentDescription) : List CodecInfo := content.kind.codecs

end MediaContentDescription

structure ContentGroup where
  semantics : String
  contentNames : List String := []
  deriving DecidableEq

def ContentGroup.addContentName (group : ContentGroup) (contentName : String) : ContentGroup :=
  if contentName ∈ group.contentNames then group else { group with contentNames := group.contentNames ++ [contentName] }

structure TransportDescription where
  mid : String := ""
  iceUfrag : String := ""
  icePwd : String := ""
  identityFingerprint : Option SSLFingerprint := none
  connectionRole : ConnectionRole := .none
  deriving DecidableEq

structure SessionDescription where
  contents : List MediaContentDescription := []
  contentGroups : List ContentGroup := []
  transportInfos : List TransportDescription := []
  deriving DecidableEq

def addFmtpLine (codec : CodecInfo) : List Text :=
  if codec.codecParam = [] then []
  else
    let data := codec.codecParam.flatMap fun param => ";".toList ++ param.1.toList ++ "=".toList ++ param.2.toList
    ["a=fmtp:".toList ++ decimal codec.id ++ " ".toList ++ data.drop 1]

def addRtcpFbLine (codec : CodecInfo) : List Text :=
  codec.feedbackParam.map fun param =>
    "a=rtcp-fb:".toList ++ decimal codec.id ++ " ".toList ++ param.id.toList ++
      if param.param = "" then [] else " ".toList ++ param.param.toList

def buildRtpMap (content : MediaContentDescription) : List Text :=
  content.codecs.flatMap fun codec =>
    ("a=rtpmap:".toList ++ decimal codec.id ++ " ".toList ++ codec.name.toList ++ "/".toList ++ decimal codec.samplerate ++
        if content.kind.type = .audio then "/".toList ++ decimal codec.channels else []) ::
      (addRtcpFbLine codec ++ addFmtpLine codec)

def buildRtpDirection (content : MediaContentDescription) : Text :=
  match content.direction with
  | .sendRecv => "a=sendrecv".toList
  | .sendOnly => "a=sendonly".toList
  | .recvOnly => "a=recvonly".toList
  | .inactive => "a=inactive".toList

def connectionRoleToString : ConnectionRole → Text
  | .active => "active".toList
  | .passive => "passive".toList
  | .actpass => "actpass".toList
  | .holdconn => "holdconn".toList
  | .none => "none".toList

def buildCandidates (content : MediaContentDescription) : List Text :=
  content.candidates.map fun c =>
    "a=candidate:".toList ++ c.foundation.toList ++ " ".toList ++ decimal c.component ++ " ".toList ++ c.protocol.toList ++
      " ".toList ++ decimal c.priority.toNat ++ " ".toList ++ c.host.toList ++ " ".toList ++ decimal c.port ++
      " typ ".toList ++ c.type.toList

def addSsrcLine (ssrc : UInt32) (attr value : Text) : Text :=
  "a=ssrc:".toList ++ decimal ssrc.toNat ++ " ".toList ++ attr ++ ":".toList ++ value

def addSsrcGroupLine (group : SsrcGroup) : Text :=
  "a=ssrc-group:".toList ++ group.semantics.toList ++ group.ssrcs.flatMap fun ssrc => " ".toList ++ decimal ssrc.toNat

/-- The lines of a track, those of its groups first. -/
def trackLines (track : StreamParams) : List Text :=
  (track.ssrcGroups.filter fun group => group.ssrcs ≠ []).map addSsrcGroupLine ++
    track.ssrcs.flatMap fun ssrc =>
      [addSsrcLine ssrc "cname".toList track.cname.toList,
       addSsrcLine ssrc "msid".toList (track.streamId.toList ++ " ".toList ++ track.id.toList),
       addSsrcLine ssrc "mslabel".toList track.streamId.toList,
       addSsrcLine ssrc "lable".toList track.id.toList]

def buildSsrc (content : MediaContentDescription) : List Text := content.streams.flatMap trackLines

def transportLines (transportInfo : Option TransportDescription) : List Text :=
  match transportInfo with
  | none => []
  | some td =>
    ["a=ice-ufrag:".toList ++ td.iceUfrag.toList, "a=ice-pwd:".toList ++ td.icePwd.toList] ++
      match td.identityFingerprint with
      | none => []
      | some fp =>
        ["a=fingerprint:".toList ++ fp.algorithm.toList ++ " ".toList ++ fp.getRfc4572Fingerprint,
         "a=setup:".toList ++ connectionRoleToString td.connectionRole]

def mediaLine (content : MediaContentDescription) (dtlsOn : Bool) : Text :=
  let mediaProtocol := if dtlsOn then "UDP/TLS/RTP/SAVPF" else "RTP/SAVPF"
  "m=".toList ++ content.mid.toList ++ " 9 ".toList ++ mediaProtocol.toList ++
    content.codecs.flatMap fun codec => " ".toList ++ decimal codec.id

/-- The number of a content in the text. -/
def midLine (content : MediaContentDescription) : Text :=
  match content.kind.type with
  | .audio => "a=mid:0".toList
  | .video => "a=mid:1".toList

namespace SessionDescription

def getContent (desc : SessionDescription) (mid : String) : Option MediaContentDescription :=
  desc.contents.find? fun content => mid = content.mid

def getGroupByName (desc : SessionDescription) (name : String) : List ContentGroup :=
  desc.contentGroups.filter fun group => group.semantics = name

def getTransportInfo (desc : SessionDescription) (mid : String) : Option TransportDescription :=
  desc.transportInfos.find? fun info => info.mid = mid

def bundleLines (desc : SessionDescription) : List Text :=
  if desc.getGroupByName "BUNDLE" = [] then []
  else
    let contentNames := (desc.getGroupByName "BUNDLE").flatMap ContentGroup.contentNames
    ["a=group:BUNDLE".toList ++ contentNames.flatMap fun contentName =>
      if contentName = "audio" then " 0".toList else if contentName = "video" then " 1".toList else []]

def contentLines (desc : SessionDescription) (dtlsOn : Bool) (content : MediaContentDescription) : List Text :=
  [mediaLine content dtlsOn, "c=IN IP4 0.0.0.0".toList] ++ transportLines (desc.getTransportInfo content.mid) ++
    [midLine content, "a=extmap:3 http://www.ietf.org/id/draft-holmer-rmcat-transport-wide-cc-extensions-01".toList,
     buildRtpDirection content] ++
    (if content.rtcpMux then ["a=rtcp-mux".toList] else []) ++ ["a=rtcp-rsize".toList] ++
    buildRtpMap content ++ buildSsrc content ++ buildCandidates content

def lines (desc : SessionDescription) (dtlsOn : Bool) : List Text :=
  ["v=0".toList, "o=XRTC/1.0 0 2 IN IP4 127.0.0.1".toList, "s=XrtcPublishSession ".toList, "t=0 0".toList] ++
    desc.bundleLines ++ ["a=msid-semantic: WMS  live/xrtc ".toList] ++ desc.contents.flatMap (desc.contentLines dtlsOn)

def toString (desc : SessionDescription) (dtlsOn : Bool) : Text :=
  (desc.lines dtlsOn).flatMap fun line => line ++ "\r\n".toList

end SessionDescription

end Sdp
end XrtcServer
