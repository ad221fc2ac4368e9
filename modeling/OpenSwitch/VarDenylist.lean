import OpenSwitch.Basic
/-!
# VarDenylist — reserved variable names and call causes

The two tables the channel handlers read: the names of channel variables a client may not set (`IsReservedVar`), and
the names of hangup causes (`CallCause`).  The denylist compares length-counted strings; the switch stores a variable
under a C string.  A name reserved by its prefix stays reserved when bytes follow a `NUL`; one of the four names
reserved as a whole does not.
-/
namespace Osw
namespace Control

def reservedVarPrefixes : List Bytes :=
  [str "api_", str "exec_", str "bridge_pre_execute_", str "bridge_post_bridge_", str "hangup_after_bridge_",
   str "sip_h_", str "record_", str "_record_", str "wait_for_", str "transfer_after_bridge",
   str "session_in_hangup_hook", str "api_on_", str "execute_on_"]

def reservedVarExact : List Bytes :=
  [str "osw_bot_session", str "osw_bot_purpose", str "osw_eavesdrop_policy", str "osw_tenant"]

def isReservedVar (name : Bytes) : Bool :=
  if name = [] then false
  else
    let lower := name.map toLower
    reservedVarExact.any (fun e => lower == e) || reservedVarPrefixes.any (fun p => lower.take p.length == p)

/-- `kCauseTable`: FreeSWITCH's cause names and values. -/
def causeTable : List (String × Nat) :=
  [("NONE", 0), ("UNALLOCATED_NUMBER", 1), ("NO_ROUTE_TRANSIT_NET", 2), ("NO_ROUTE_DESTINATION", 3),
   ("CHANNEL_UNACCEPTABLE", 6), ("CALL_AWARDED_DELIVERED", 7), ("NORMAL_CLEARING", 16), ("USER_BUSY", 17),
   ("NO_USER_RESPONSE", 18), ("NO_ANSWER", 19), ("SUBSCRIBER_ABSENT", 20), ("CALL_REJECTED", 21),
   ("NUMBER_CHANGED", 22), ("REDIRECTION_TO_NEW_DESTINATION", 23), ("EXCHANGE_ROUTING_ERROR", 25),
   ("DESTINATION_OUT_OF_ORDER", 27), ("INVALID_NUMBER_FORMAT", 28), ("FACILITY_REJECTED", 29),
   ("RESPONSE_TO_STATUS_ENQUIRY", 30), ("NORMAL_UNSPECIFIED", 31), ("NORMAL_CIRCUIT_CONGESTION", 34),
   ("NETWORK_OUT_OF_ORDER", 38), ("NORMAL_TEMPORARY_FAILURE", 41), ("SWITCH_CONGESTION", 42),
   ("ACCESS_INFO_DISCARDED", 43), ("REQUESTED_CHAN_UNAVAIL", 44), ("PRE_EMPTED", 45), ("FACILITY_NOT_SUBSCRIBED", 50),
   ("OUTGOING_CALL_BARRED", 52), ("INCOMING_CALL_BARRED", 54), ("BEARERCAPABILITY_NOTAUTH", 57),
   ("BEARERCAPABILITY_NOTAVAIL", 58), ("SERVICE_UNAVAILABLE", 63), ("BEARERCAPABILITY_NOTIMPL", 65),
   ("CHAN_NOT_IMPLEMENTED", 66), ("FACILITY_NOT_IMPLEMENTED", 69), ("SERVICE_NOT_IMPLEMENTED", 79),
   ("INVALID_CALL_REFERENCE", 81), ("INCOMPATIBLE_DESTINATION", 88), ("INVALID_MSG_UNSPECIFIED", 95),
   ("MANDATORY_IE_MISSING", 96), ("MESSAGE_TYPE_NONEXIST", 97), ("WRONG_MESSAGE", 98), ("IE_NONEXIST", 99),
   ("INVALID_IE_CONTENTS", 100), ("WRONG_CALL_STATE", 101), ("RECOVERY_ON_TIMER_EXPIRE", 102),
   ("MANDATORY_IE_LENGTH_ERROR", 103), ("PROTOCOL_ERROR", 111), ("INTERWORKING", 127), ("SUCCESS", 142),
   ("ORIGINATOR_CANCEL", 487), ("CRASH", 700), ("SYSTEM_SHUTDOWN", 701), ("LOSE_RACE", 702), ("MANAGER_REQUEST", 703),
   ("BLIND_TRANSFER", 800), ("ATTENDED_TRANSFER", 801), ("ALLOTTED_TIMEOUT", 802), ("USER_CHALLENGE", 803),
   ("MEDIA_TIMEOUT", 804), ("PICKED_OFF", 805), ("USER_NOT_REGISTERED", 806), ("PROGRESS_TIMEOUT", 807),
   ("INVALID_GATEWAY", 808), ("GATEWAY_DOWN", 809), ("INVALID_URL", 810), ("INVALID_PROFILE", 811),
   ("NO_PICKUP", 812), ("SRTP_READ_ERROR", 813), ("BOWOUT", 814), ("BUSY_EVERYWHERE", 815), ("DECLINE", 816),
   ("DOES_NOT_EXIST_ANYWHERE", 817), ("NOT_ACCEPTABLE", 818), ("UNWANTED", 819), ("NO_IDENTITY", 820),
   ("BAD_IDENTITY_INFO", 821), ("UNSUPPORTED_CERTIFICATE", 822), ("INVALID_IDENTITY", 823), ("STALE_DATE", 824),
   ("REJECT_ALL", 825)]

def causeNormalClearing : Nat := 16

/-- `CallCause::FromString`. -/
def causeFromString (s : Bytes) : Nat :=
  if s = [] ∨ s = str "UNSPECIFIED" then causeNormalClearing
  else
    match causeTable.find? (fun e => s == str e.1) with
    | some e => e.2
    | none   => causeNormalClearing

/-- `CallCause::ToString`. -/
def causeToString (cause : Nat) : Bytes :=
  match causeTable.find? (fun e => e.2 == cause) with
  | some e => str e.1
  | none   => str "UNSPECIFIED"

end Control
end Osw
