import StateSync.Address.Basic
import StateSync.Archive.Reader
import StateSync.Handle
import StateSync.Text.Quoted

/-! What can go wrong, by cause, and the wording of each cause. -/

namespace StateSync

inductive SettingFault where
  | unknown (key : String)
  | unreadable (key value : String)
  | notPositive (key : String)
  | notPercent (key : String)
  | notHost (text : String)
  | noHosts
  deriving DecidableEq, Repr, Inhabited

def SettingFault.message : SettingFault → String
  | unknown key => s!"unknown setting {key}"
  | unreadable key value => "invalid value " ++ Text.quoted value ++ " for " ++ key
  | notPositive key => s!"{key} must be positive"
  | notPercent key => s!"{key} must be within 0-100"
  | notHost text => "invalid bind address " ++ Text.quoted text
  | noHosts => "no bind addresses"

/-- Why the bytes of a frame or the contents of a message make no sense. -/
inductive FrameFault where
  | emptyFrame
  /-- The ids of a name table do not count up from zero. -/
  | tableGap
  | tableDuplicate
  /-- A name table does not begin with the name of the table message itself. -/
  | tableBootstrap
  /-- A message kind of the application refuses its contents. -/
  | contents (why : String)
  deriving DecidableEq, Repr, Inhabited

def FrameFault.message : FrameFault → String
  | emptyFrame => "empty data frame"
  | tableGap => "string table ids are not contiguous"
  | tableDuplicate => "duplicate name in string table"
  | tableBootstrap => "string table bootstrap id mismatch"
  | contents why => why

inductive TransportFault where
  | inUse (addr : Address)
  | notBound (addr : Address)
  | noListener (addr : Address)
  | notConnected (peer : Peer)
  /-- The transport fails without giving a cause. -/
  | refused (call : String)
  deriving DecidableEq, Repr, Inhabited

def TransportFault.message : TransportFault → String
  | inUse addr => s!"address {addr} already in use"
  | notBound addr => s!"{addr} is not bound"
  | noListener addr => s!"no listener at {addr}"
  | notConnected peer => s!"{peer} is not connected"
  | refused call => s!"{call} failed"

inductive WriteFault where
  /-- The archive is longer than its pointers reach. -/
  | tooLong
  deriving DecidableEq, Repr, Inhabited

/-- The calls that only one side of a connection may make. -/
inductive SidedCall where
  | startServer
  | connectClient
  deriving DecidableEq, Repr, Inhabited

def SidedCall.text : SidedCall → String
  | startServer => "start_server"
  | connectClient => "connect_client"

inductive NetError where
  | duplicateMessage (name : String)
  | noHandler (name : String)
  | unregisteredMessage (name : String)
  | tableLocked (name : String)
  | tableFull (name : String)
  | noStringTable
  | noChannel (id : ConnectionId)
  | unknownPeer (peer : Peer)
  | notRunning
  | alreadyRunning
  | wrongSide (call : SidedCall)
  | config (fault : SettingFault)
  | malformed (fault : FrameFault)
  | transport (fault : TransportFault)
  | encode (fault : WriteFault)
  | decode (fault : Archive.ReadFault)
  deriving DecidableEq, Repr, Inhabited

def WriteFault.message : WriteFault → String
  | tooLong => "archive too long"

def Archive.ReadFault.message : Archive.ReadFault → String
  | outside => "object outside of the free bytes"
  | misaligned => "object off its alignment"
  | badFlag => "flag neither zero nor one"
  | badText => "text not UTF-8"
  | shortText => "short text outside of its record"

def NetError.message : NetError → String
  | duplicateMessage name => s!"message type {name} is already registered"
  | noHandler name => s!"message type {name} has no handler"
  | unregisteredMessage name => s!"message type {name} has no string table id"
  | tableLocked name => s!"string table is locked, cannot add {name}"
  | tableFull name => s!"string table is full, cannot add {name}"
  | noStringTable => "string table has not been received from the server yet"
  | noChannel id => s!"connection {id} has no channel"
  | unknownPeer peer => s!"unknown peer {peer}"
  | notRunning => "network manager is not running"
  | alreadyRunning => "network manager is already running"
  | wrongSide call => call.text ++ " is not available on this side"
  | config fault => "invalid config: " ++ fault.message
  | malformed fault => "malformed frame: " ++ fault.message
  | transport fault => "transport error: " ++ fault.message
  | encode fault => "serialization failed: " ++ fault.message
  | decode fault => "deserialization failed: " ++ fault.message

end StateSync
