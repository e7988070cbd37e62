import IrcordServer.Text

/-!
# The virus scanner

`security/virus_scanner.cpp`, whose scanner is a stub that is never available.
-/

namespace Ircord

/-- `ScanResult`. -/
structure ScanResult where
  clean : Bool
  error : Bool
  virusName : Str
  deriving DecidableEq

namespace VirusScanner

/-- `VirusScanner::is_available`. -/
def isAvailable : Bool := false

/-- `VirusScanner::scan`. -/
def scan (_data : Bytes) : ScanResult := ⟨false, true, []⟩

end VirusScanner

namespace VirusScannerManager

/-- `is_enabled`: nothing clears the flag. -/
def isEnabled : Bool := true

/-- `is_available`. -/
def isAvailable : Bool := isEnabled && VirusScanner.isAvailable

/-- `scan`: a scanner that is not available finds every file clean. -/
def scan (data : Bytes) : ScanResult :=
  if !isAvailable then ⟨true, false, []⟩ else VirusScanner.scan data

end VirusScannerManager

end Ircord
