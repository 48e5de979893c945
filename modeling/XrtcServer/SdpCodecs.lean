import XrtcServer.ExceptFolds
import XrtcServer.SdpText

/-! The payload types that are chosen for the answer: that of the first line with the patterns of
H264, and that of the first line with the pattern of rtx from there on. -/
namespace XrtcServer
namespace Sdp
variable {line : Text} {lines : List Text} {s s' : ParseState} {sdp : Text} {desc : SessionDescription}

section Offer

/-- The payload type that a line is about. -/
def payloadType (line : Text) : ℤ := atoi (getAttribute ((split (line.drop 2) ' ').headD []))

end Offer

section Choice

end Choice

section Pairing

/-- An offer of VP8 and H264. -/
def offer (codecLines : List String) : Text :=
  (["v=0", "o=- 1 2 IN IP4 127.0.0.1", "s=-", "t=0 0", "m=video 9 UDP/TLS/RTP/SAVPF 96 97 102 121",
    "c=IN IP4 0.0.0.0", "a=ice-ufrag:w/W3", "a=ice-pwd:l8PkVNNDw9depfNOxAzZHUzT"] ++ codecLines).flatMap
      fun line => line.toList ++ "\r\n".toList

/-- What is read of it. -/
def answered (h264CodecId rtxCodecId : ℤ) : SessionDescription where
  contents := [{ kind := .video h264CodecId rtxCodecId }]
  transportInfos := [{}, { mid := "video", iceUfrag := "w/W3", icePwd := "l8PkVNNDw9depfNOxAzZHUzT" }]

end Pairing
end Sdp
end XrtcServer
