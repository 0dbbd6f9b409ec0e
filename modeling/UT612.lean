import UT612.Proof.Decoder.Stale
import UT612.Proof.Decoder.Readback
import UT612.Proof.Parser.Greedy
import UT612.Proof.Parser.Recovery
import UT612.Proof.Parser.Chimera
import UT612.Proof.Parser.Table
import UT612.Proof.Parser.Count
import UT612.Proof.Main.Program
import UT612.Proof.Hid.Version
