import MPSsh.Channel.Isolation
import MPSsh.LSSession.Fingerprint
import MPSsh.LSSession.Keyboard
import MPSsh.Shell.Attribution
import MPSsh.Shell.Boundary
import MPSsh.Shell.Bounds
import MPSsh.Shell.Framing
import MPSsh.Shell.Free
import MPSsh.Shell.Numbering
import MPSsh.Shell.Overlap
import MPSsh.Shell.Result
import MPSsh.Shell.Stop
import MPSsh.Shell.Transmission
import MPSsh.Session.Credentials
import MPSsh.Session.Endpoint
import MPSsh.Session.Fallback
import MPSsh.Session.Language
import MPSsh.Session.Prompt
import MPSsh.Session.Sockets
import MPSsh.Session.Failures
import MPSsh.Session.UserName
import MPSsh.Sftp.Attributes
import MPSsh.Sftp.Handles
import MPSsh.Sftp.Listing
import MPSsh.Sftp.Order
import MPSsh.Shell.Creation
import MPSsh.Shell.Decoding
import MPSsh.Shell.Ending
import MPSsh.Shell.ReadBuffer
import MPSsh.Host.Interfaces
import MPSsh.Shell.Provenance
import MPSsh.Session.Requests
import MPSsh.System.Routing
import MPSsh.Shell.Reader
import MPSsh.Shell.Teardown
import MPSsh.Session.Native
import MPSsh.Session.Bounded
import MPSsh.Shell.Polling
import MPSsh.Session.Reports
