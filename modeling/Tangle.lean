import Tangle.Support.Reentrant
import Tangle.Support.Raising
import Tangle.Ssh.Retry
import Tangle.Ssh.Launch
import Tangle.Ssh.Pick
import Tangle.Tty.Requests
import Tangle.Tty.History
import Tangle.Tty.Delivery
import Tangle.Tty.Setups
import Tangle.Tty.Factory
import Tangle.Browser.Status
import Tangle.Browser.Output
import Tangle.Browser.Errback
import Tangle.Browser.Render
import Tangle.Browser.Cycle
import Tangle.Browser.Maximised
import Tangle.Browser.Geometry
import Tangle.Browser.Notices
import Tangle.Browser.Once
import Tangle.Term.Like
import Tangle.Term.Effect
import Tangle.Term.Round
import Tangle.Term.Draw
import Tangle.Term.Grid
import Tangle.Term.Progress
import Tangle.Term.Run
import Tangle.Term.Paint
import Tangle.Term.Colours
import Tangle.Term.Chunks
import Tangle.Term.Sequence
import Tangle.Term.Commands
import Tangle.Term.Paper
import Tangle.Term.Alternate
import Tangle.Term.Render
