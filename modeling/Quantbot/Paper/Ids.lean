import Quantbot.Util.Json
import Quantbot.Util.Sha256
import Quantbot.Paper.Rows

/-!
Row identities: truncated SHA-256 digests.
-/

namespace Quantbot

def shortDigest (s : String) : String :=
  String.ofList ((Sha256.hexdigest s).take 16)

def fillId (symbol signalBarTs side kind : String) : String :=
  shortDigest (symbol ++ "|" ++ signalBarTs ++ "|" ++ side ++ "|" ++ kind)

def snapshotId (barTs : String) : String :=
  shortDigest ("snap|" ++ barTs)

/--
The digest of the canonical JSON object with the keys `bar_ts`, `config_hash`, `engine_version` and
`row`, in that order.
-/
def barCommitId (obs : Obs) (barTs engineVersion configHash : String) : String :=
  shortDigest ("\x7b\"bar_ts\":" ++ Json.quote barTs ++ ",\"config_hash\":" ++ Json.quote configHash
    ++ ",\"engine_version\":" ++ Json.quote engineVersion ++ ",\"row\":" ++ obs.canonicalJson
    ++ "\x7d")

def consumedRowDigest (obs : Obs) : String :=
  String.ofList (Sha256.hexdigest obs.canonicalJson)

@[simp]
theorem length_shortDigest (s : String) : (shortDigest s).toList.length = 16 := by
  simp [shortDigest]

theorem mem_shortDigest {c : Char} {s : String} (h : c ∈ (shortDigest s).toList)
    : c ∈ "0123456789abcdef".toList := by
  simp only [shortDigest, String.toList_ofList] at h
  apply Sha256.mem_hexdigest
  exact List.mem_of_mem_take h

end Quantbot
